import KineticAtlas.Library.Texts
import Mathlib.Data.Char
import Mathlib.Data.List.Lex
import Mathlib.Data.List.Sort

/-!
The registry table ATLAS.md as its two scripts read and rewrite it: header lines,
a separator line and one row of eight cells per network. Both scripts scan the
file in the same way and cut the header off at the line they look up as the
separator. The format is described by well-formed tables; the scan of a table's
text gives its lines back.
-/
namespace KineticAtlas.AtlasTable

open Library.Texts

/-- The scripts take a line with this prefix for the separator. -/
def separatorPrefix : Str := "| :---"

/-- `[p.strip() for p in line.split('|')[1:-1]]`. -/
def cellsOf (line : Str) : List Str := ((line.splitOn '|').drop 1).dropLast.map strip

def tldKey (cell : Str) : Str := cell.filter (· ≠ '`')

structure Scan (R : Type) where
  tableStarted : Bool
  headerLines : List Str
  tableRows : R

variable {R : Type}

/-- One round of the loop over the lines; `onRow` is what a script does with a row. -/
def scanLine (onRow : R → Str → List Str → R) (s : Scan R) (line : Str) : Scan R :=
  if separatorPrefix <+: line then
    { s with tableStarted := true, headerLines := s.headerLines ++ [line] }
  else if !s.tableStarted then { s with headerLines := s.headerLines ++ [line] }
  else if ['|'] <+: line then { s with tableRows := onRow s.tableRows line (cellsOf line) }
  else { s with headerLines := s.headerLines ++ [line] }

def scan (onRow : R → Str → List Str → R) (empty : R) (content : Str) : Scan R :=
  ((universalNewlines content).splitOn '\n').foldl (scanLine onRow) ⟨false, [], empty⟩

inductive Outcome
  | completed
  | valueError
  | fileNotFound
  deriving DecidableEq

/-- Rewriting the file: it is truncated when opened, before `index` is evaluated. -/
def rewriteTable (headerLines rows : List Str) : Str × Outcome :=
  match headerLines.idxOf? separatorPrefix with
  | some i =>
    (['\n'].intercalate (headerLines.take (i + 1)) ++ ['\n'] ++
      rows.flatMap fun row => row ++ ['\n'], .completed)
  | none => ([], .valueError)

def IsLine (s : Str) : Prop := '\n' ∉ s ∧ '\r' ∉ s

def Clean (cell : Str) : Prop := '|' ∉ cell ∧ IsLine cell

instance : DecidablePred IsLine := fun s => inferInstanceAs (Decidable ('\n' ∉ s ∧ '\r' ∉ s))

instance : DecidablePred Clean := fun s => inferInstanceAs (Decidable ('|' ∉ s ∧ IsLine s))

/-- A row of eight cells. Its first cell does not make it look like a separator. -/
structure Row where
  cells : List Str
  eight : cells.length = 8
  cells_clean : ∀ c ∈ cells, Clean c
  not_separator : ¬ ":---".toList <+: strip (cells.headD [])

namespace Row

def line (r : Row) : Str := '|' :: ['|'].intercalate r.cells ++ ['|']

def tld (r : Row) : Str := tldKey (strip (r.cells.headD []))

end Row

structure Table where
  header : List Str
  separator : Str
  rows : List Row
  endsWithNewline : Bool
  header_lines : ∀ l ∈ header, IsLine l ∧ ¬ separatorPrefix <+: l
  separator_line : IsLine separator ∧ separatorPrefix <+: separator
  tlds_distinct : (rows.map Row.tld).Nodup

namespace Table

def lines (t : Table) : List Str :=
  t.header ++ [t.separator] ++ t.rows.map Row.line ++ if t.endsWithNewline then [[]] else []

def text (t : Table) : Str := ['\n'].intercalate t.lines

end Table

namespace Row

theorem cells_ne_nil (r : Row) : r.cells ≠ [] := by
  intro hnil
  have h := r.eight
  simp [hnil] at h

theorem cellsOf_line (r : Row) : cellsOf r.line = r.cells.map strip := by
  have hsplit : r.line.splitOn '|' = [] :: r.cells ++ [[]] := by
    have hline : r.line = ['|'].intercalate ([] :: r.cells ++ [[]]) := by
      rw [intercalate_concat '|' _ (by simp), List.intercalate_cons_of_ne_nil r.cells_ne_nil]
      rfl
    rw [hline]
    refine List.splitOn_intercalate '|' (fun c hc => ?_) (by simp)
    have hc' : c = [] ∨ c ∈ r.cells ∨ c = [] := by simpa using hc
    rcases hc' with rfl | hmem | rfl
    · simp
    · exact (r.cells_clean c hmem).1
    · simp
  rw [cellsOf, hsplit]
  simp

theorem isLine_line (r : Row) : IsLine r.line := by
  have hmem : ∀ ch, ch ∈ r.line → ch = '|' ∨ ∃ c ∈ r.cells, ch ∈ c := by
    intro ch hch
    rcases List.mem_append.mp hch with hin | hend
    · rcases List.mem_cons.mp hin with rfl | hin
      · exact Or.inl rfl
      · rcases mem_intercalate hin with hsep | hcell
        · exact Or.inl (by simpa using hsep)
        · exact Or.inr hcell
    · exact Or.inl (by simpa using hend)
  constructor
  · intro hch
    rcases hmem _ hch with heq | ⟨c, hc, hin⟩
    · exact absurd heq (by decide)
    · exact (r.cells_clean c hc).2.1 hin
  · intro hch
    rcases hmem _ hch with heq | ⟨c, hc, hin⟩
    · exact absurd heq (by decide)
    · exact (r.cells_clean c hc).2.2 hin

theorem line_not_separator (r : Row) : ¬ separatorPrefix <+: r.line := by
  intro h
  obtain ⟨first, rest, hcells⟩ := List.exists_cons_of_ne_nil r.cells_ne_nil
  obtain ⟨tail, htail⟩ : ∃ tail, ['|'].intercalate r.cells ++ ['|'] = first ++ '|' :: tail := by
    rw [hcells]
    cases rest with
    | nil => exact ⟨[], by simp⟩
    | cons c rest => exact ⟨['|'].intercalate (c :: rest) ++ ['|'], by simp⟩
  have hpre : " :---".toList <+: first := by
    refine prefix_of_prefix_append_cons (c := '|') (t := tail) ?_ (by decide)
    rw [← htail]
    exact (List.cons_prefix_cons.mp h).2
  obtain ⟨u, rfl⟩ := hpre
  refine r.not_separator ?_
  rw [hcells]
  have hstrip : strip (" :---".toList ++ u) = (":---".toList ++ u).rdropWhile isPythonSpace :=
    trim_cons_of_pos (by decide) _
  exact hstrip ▸ prefix_rdropWhile (by decide) ":--".toList u

end Row

theorem foldl_header (onRow : R → Str → List Str → R) (ls seen : List Str) (r : R)
    (h : ∀ l ∈ ls, ¬ separatorPrefix <+: l) :
    ls.foldl (scanLine onRow) ⟨false, seen, r⟩ = ⟨false, seen ++ ls, r⟩ := by
  induction ls generalizing seen with
  | nil => simp
  | cons l rest ih =>
    have hl := h l List.mem_cons_self
    rw [List.foldl_cons, scanLine, if_neg hl]
    simpa using ih (seen ++ [l]) fun l' hl' => h l' (List.mem_cons_of_mem l hl')

theorem foldl_rows (onRow : R → Str → List Str → R) (rows : List Row) (seen : List Str) (r : R) :
    (rows.map Row.line).foldl (scanLine onRow) ⟨true, seen, r⟩ =
      ⟨true, seen, rows.foldl (fun r row => onRow r row.line (row.cells.map strip)) r⟩ := by
  induction rows generalizing r with
  | nil => rfl
  | cons row rest ih =>
    have hpipe : ['|'] <+: row.line := ⟨_, rfl⟩
    rw [List.map_cons, List.foldl_cons, scanLine, if_neg row.line_not_separator]
    simp only [Bool.not_true, Bool.false_eq_true, if_false, if_pos hpipe, row.cellsOf_line,
      List.foldl_cons]
    exact ih _

namespace Table

theorem lines_clean (t : Table) : ∀ l ∈ t.lines, IsLine l := by
  intro l hl
  rcases List.mem_append.mp hl with hbody | hend
  · rcases List.mem_append.mp hbody with hhead | hrow
    · rcases List.mem_append.mp hhead with hheader | hsep
      · exact (t.header_lines l hheader).1
      · obtain rfl : l = t.separator := by simpa using hsep
        exact t.separator_line.1
    · obtain ⟨r, _, rfl⟩ := List.mem_map.mp hrow
      exact r.isLine_line
  · split at hend
    · obtain rfl : l = [] := by simpa using hend
      exact ⟨by simp, by simp⟩
    · cases hend

theorem read_text (t : Table) : (universalNewlines t.text).splitOn '\n' = t.lines := by
  have hreturn : '\r' ∉ t.text := by
    intro hmem
    rcases mem_intercalate hmem with hsep | ⟨l, hl, hin⟩
    · simp at hsep
    · exact (t.lines_clean l hl).2 hin
  rw [universalNewlines_of_no_return _ hreturn]
  refine List.splitOn_intercalate '\n' (fun l hl => (t.lines_clean l hl).1) ?_
  simp [lines]

/-- What the scan of a well-formed table finds. -/
theorem scan_text (t : Table) (onRow : R → Str → List Str → R) (empty : R) :
    scan onRow empty t.text =
      { tableStarted := true
        headerLines := t.header ++ t.separator :: if t.endsWithNewline then [[]] else []
        tableRows := t.rows.foldl (fun r row => onRow r row.line (row.cells.map strip)) empty } := by
  rw [scan, read_text, lines]
  rw [List.foldl_append, List.foldl_append, List.foldl_append,
    foldl_header onRow t.header [] empty fun l hl => (t.header_lines l hl).2]
  rw [List.foldl_cons, List.foldl_nil, scanLine, if_pos t.separator_line.2, foldl_rows]
  cases t.endsWithNewline with
  | false => simp
  | true => simp [scanLine, separatorPrefix]

theorem text_of_newline (t : Table) (h : t.endsWithNewline = true) :
    t.text = ['\n'].intercalate (t.header ++ [t.separator]) ++ ['\n'] ++
      (t.rows.map Row.line).flatMap fun row => row ++ ['\n'] := by
  have hhead := intercalate_newline_end (t.header ++ [t.separator])
  have hall := intercalate_newline_end (t.header ++ [t.separator] ++ t.rows.map Row.line)
  rw [List.flatMap_append] at hall
  have hne : ['\n'].intercalate (t.header ++ [t.separator] ++ [[]]) =
      ['\n'].intercalate (t.header ++ [t.separator]) ++ ['\n'] :=
    intercalate_concat '\n' _ (by simp)
  rw [text, lines, h, if_pos rfl, hall, ← hhead, hne]

/-- The table with other rows and a final newline. -/
def withRows (t : Table) (rows : List Row) (h : (rows.map Row.tld).Nodup) : Table :=
  { t with rows := rows, endsWithNewline := true, tlds_distinct := h }

theorem idxOf?_separator (header tail : List Str) (h : ∀ l ∈ header, ¬ separatorPrefix <+: l) :
    (header ++ separatorPrefix :: tail).idxOf? separatorPrefix = some header.length := by
  induction header with
  | nil => simp [List.idxOf?_cons]
  | cons l rest ih =>
    have hl : l ≠ separatorPrefix := by
      rintro rfl
      exact h _ List.mem_cons_self List.prefix_rfl
    simp [List.idxOf?_cons, hl, ih fun l' hl' => h l' (List.mem_cons_of_mem l hl')]

/-- With the bare separator the header is found and kept, and rows are written anew. -/
theorem rewriteTable_of_bare (t : Table) (hsep : t.separator = separatorPrefix)
    (tail : List Str) (rows : List Row) (hrows : (rows.map Row.tld).Nodup) :
    rewriteTable (t.header ++ t.separator :: tail) (rows.map Row.line) =
      ((t.withRows rows hrows).text, .completed) := by
  have hidx := idxOf?_separator t.header tail fun l hl => (t.header_lines l hl).2
  have htake : (t.header ++ separatorPrefix :: tail).take (t.header.length + 1) =
      t.header ++ [separatorPrefix] := by
    simp [List.take_append]
  rw [text_of_newline _ rfl, hsep]
  simp only [rewriteTable, hidx, htake, withRows, hsep]

/-- With any other separator `index` fails, and the file has just been truncated. -/
theorem rewriteTable_of_not_bare (t : Table) (hsep : t.separator ≠ separatorPrefix)
    (rows : List Str) :
    rewriteTable (t.header ++ t.separator :: if t.endsWithNewline then [[]] else []) rows =
      ([], .valueError) := by
  have hnone : (t.header ++ t.separator :: if t.endsWithNewline then [[]] else []).idxOf?
      separatorPrefix = none := by
    rw [List.idxOf?_eq_none_iff]
    intro hmem
    rcases List.mem_append.mp hmem with hheader | htail
    · exact (t.header_lines _ hheader).2 List.prefix_rfl
    · rcases List.mem_cons.mp htail with heq | hend
      · exact hsep heq.symm
      · split at hend <;> simp [separatorPrefix] at hend
  simp only [rewriteTable, hnone]

end Table

end KineticAtlas.AtlasTable
