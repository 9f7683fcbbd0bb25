import KineticAtlas.Library.Files

/-!
How an operating system follows a path: name by name through the directories, `..`
and links being names like any other. The names before the last one lead to the
directory that holds the entry a path is about. A relative name joined to a base is
followed from the base, an absolute one from the root.
-/
namespace Library.Paths

open Texts Files

/-- Directories, and where each name leads from them. Doubled separators make empty
names, which lead nowhere else. -/
structure DirTree (D : Type) where
  root : D
  cwd : D
  enter : D → Str → Option D
  enter_empty : ∀ d, enter d [] = some d

variable {D : Type} (tree : DirTree D)

def walk (d : D) (names : List Str) : Option D := names.foldlM tree.enter d

/-- Where a path starts that is relative to a directory. -/
def startOf (d : D) (path : Str) : D := if path.head? = some '/' then tree.root else d

/-- The directory a path leads to. -/
def follow (d : D) (path : Str) : Option D := walk tree (startOf tree d path) (path.splitOn '/')

/-- The directory of the entry a path is about. -/
def parent (d : D) (path : Str) : Option D :=
  walk tree (startOf tree d path) (path.splitOn '/').dropLast

def fileName (path : Str) : Str := path.rtakeWhile (· ≠ '/')

/-- The path is about an entry of its own in the directory. -/
def IsDirectChild (dir path : Str) : Prop :=
  (∃ d, follow tree tree.cwd dir = some d ∧ parent tree tree.cwd path = some d) ∧
    fileName path ∉ [[], ".".toList, "..".toList]

/-- From the directory, the names before the last one lead back to it. -/
def StaysIn (dir name : Str) : Prop :=
  ∃ d, follow tree tree.cwd dir = some d ∧ parent tree d name = some d

theorem walk_append (d : D) (names names' : List Str) :
    walk tree d (names ++ names') = (walk tree d names).bind fun d' => walk tree d' names' := by
  simp [walk, List.foldlM_append]

theorem walk_concat_empty (d : D) (names : List Str) :
    walk tree d (names ++ [[]]) = walk tree d names := by
  rw [walk_append]
  cases hnames : walk tree d names with
  | none => rfl
  | some d' => simp [walk, tree.enter_empty]

theorem startOf_append (d : D) {base : Str} (hbase : base ≠ []) (rest : Str) :
    startOf tree d (base ++ rest) = startOf tree d base := by
  cases base with
  | nil => exact absurd rfl hbase
  | cons c base => rfl

theorem dropLast_splitOn (base name : Str) :
    ((base ++ '/' :: name).splitOn '/').dropLast =
      base.splitOn '/' ++ (name.splitOn '/').dropLast := by
  rw [List.splitOn_append_cons_self]
  exact List.dropLast_append_of_ne_nil (List.splitOn_ne_nil _ _)

/-- A joined name is looked for from the base directory. -/
theorem parent_joinPath {d d' : D} {base : Str} (name : Str)
    (hbase : follow tree d base = some d') :
    parent tree d (joinPath base name) = parent tree d' name := by
  by_cases habs : name.head? = some '/'
  · simp [joinPath, parent, startOf, habs]
  · have hstart : startOf tree d' name = d' := by simp [startOf, habs]
    by_cases hempty : base = []
    · subst base
      obtain rfl : d = d' := by simpa [follow, startOf, walk, tree.enter_empty] using hbase
      simp [joinPath, habs]
    · by_cases hsep : base.getLast? = some '/'
      · obtain ⟨b, rfl⟩ : ∃ b, base = b ++ ['/'] := List.getLast?_eq_some_iff.mp hsep
        have hb : walk tree (startOf tree d (b ++ ['/'])) (b.splitOn '/') = some d' := by
          rw [follow, List.splitOn_append_cons_self] at hbase
          rwa [← walk_concat_empty]
        have hjoin : joinPath (b ++ ['/']) name = b ++ '/' :: name := by
          simp [joinPath, habs]
        have hroot : startOf tree d (b ++ '/' :: name) = startOf tree d (b ++ ['/']) := by
          have happend : b ++ '/' :: name = (b ++ ['/']) ++ name := by simp
          rw [happend]
          exact startOf_append tree d hempty name
        rw [hjoin, parent, dropLast_splitOn, walk_append, hroot, hb, parent, hstart]
        rfl
      · have hjoin : joinPath base name = base ++ '/' :: name := by
          simp [joinPath, habs, hempty, hsep]
        rw [hjoin, parent, dropLast_splitOn, walk_append, startOf_append tree d hempty]
        rw [follow] at hbase
        rw [hbase, parent, hstart]
        rfl

theorem suffix_joinPath (base name : Str) : name <:+ joinPath base name := by
  unfold joinPath
  split
  · exact List.suffix_rfl
  · split
    · exact List.suffix_append base name
    · exact ⟨base ++ ['/'], by simp⟩

/-- An ending without separators belongs to the file name. -/
theorem suffix_fileName {suf path : Str} (hsep : '/' ∉ suf) (h : suf <:+ path) :
    suf <:+ fileName path := by
  obtain ⟨p, rfl⟩ := h
  have hall : ∀ c ∈ suf.reverse, (decide (c ≠ '/')) = true := by
    intro c hc
    have hmem : c ∈ suf := List.mem_reverse.mp hc
    exact decide_eq_true fun heq => hsep (heq ▸ hmem)
  refine ⟨fileName p, ?_⟩
  simp only [fileName, List.rtakeWhile, List.reverse_append]
  rw [List.takeWhile_append_of_pos hall]
  simp

theorem isDirectChild_joinPath_iff {dir name : Str}
    (hname : fileName (joinPath dir name) ∉ [[], ".".toList, "..".toList]) :
    IsDirectChild tree dir (joinPath dir name) ↔ StaysIn tree dir name := by
  constructor
  · rintro ⟨⟨d, hdir, hpath⟩, -⟩
    rw [parent_joinPath tree name hdir] at hpath
    exact ⟨d, hdir, hpath⟩
  · rintro ⟨d, hdir, hstays⟩
    rw [← parent_joinPath tree name hdir] at hstays
    exact ⟨⟨d, hdir, hstays⟩, hname⟩

end Library.Paths
