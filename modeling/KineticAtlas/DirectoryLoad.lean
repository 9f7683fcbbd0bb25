import KineticAtlas.RegistryLoad

/-!
What a load makes of a directory, entry by entry (load_from_dir in registry.rs). An entry
counts for what reading it yields when its turn comes: the announcements of earlier
networks are written in between and may be anywhere. The registry afterwards is the table
of the first files of each TLD; a directory that is there but cannot be listed leaves it
empty, and the second result says when that differs from leaving it alone.
-/
namespace KineticAtlas.DirectoryLoad

open Library.Texts Library.Utf8 Library.Files Library.FirstWins KineticAtlas.Types Registry
  RegistryLoad

/-- What comes of reading a file and decoding it as a network. -/
inductive FileOutcome
  | unreadable
  | unparsable
  | parsed (config : NetworkConfig)

variable {F : Type}

def fileOutcome (fs : FileSystem F) (json : Json) (disk : Disk F) (path : Str) : FileOutcome :=
  match readToString fs disk path with
  | none => .unreadable
  | some content =>
    match json.parseConfig content with
    | none => .unparsable
    | some config => .parsed config

variable {fs : FileSystem F} {json : Json} {globalConfig : AtlasConfig} {dir : Str}
  {disk : Disk F} {names : List Str} {s : Loading F}

theorem isExcluded_iff {tldName : Str} :
    isExcluded globalConfig tldName = false ↔
      (globalConfig.whitelist = [] ∨ tldName ∈ globalConfig.whitelist) ∧
        tldName ∉ globalConfig.blacklist := by
  unfold isExcluded
  rw [or_iff_not_imp_left]
  cases hblack : globalConfig.blacklist with
  | nil => simp
  | cons entry rest => simp

theorem fileOutcome_iff {path : Str} {config : NetworkConfig} :
    fileOutcome fs json disk path = .parsed config ↔
      (readToString fs disk path).bind json.parseConfig = some config := by
  unfold fileOutcome
  cases readToString fs disk path with
  | none => simp
  | some content =>
    dsimp only [Option.bind_some]
    cases json.parseConfig content <;> simp

/-- The network that a file has, in terms of what reading it yields. -/
theorem fileNetwork_iff {name key : Str} {config : NetworkConfig} :
    fileNetwork fs json globalConfig dir disk name = some (key, config) ↔
      extension name = some "json".toList ∧
        fileOutcome fs json disk (joinPath dir name) = .parsed config ∧
        key = '.' :: trimStartDots config.tld ∧
        isExcluded globalConfig (trimStartDots config.tld) = false := by
  rw [fileOutcome_iff]
  unfold fileNetwork
  by_cases hext : extension name = some "json".toList
  · rw [if_pos hext]
    cases hread : (readToString fs disk (joinPath dir name)).bind json.parseConfig with
    | none => simp
    | some found =>
      dsimp only
      by_cases hexcluded : isExcluded globalConfig (trimStartDots found.tld) = true
      · rw [if_pos hexcluded]
        refine iff_of_false (by simp) ?_
        rintro ⟨-, hfound, -, hincluded⟩
        obtain rfl := Option.some.inj hfound
        simp [hexcluded] at hincluded
      · rw [if_neg hexcluded]
        simp only [Option.some.injEq, Prod.mk.injEq]
        constructor
        · rintro ⟨rfl, rfl⟩
          exact ⟨hext, rfl, rfl, by simpa using hexcluded⟩
        · rintro ⟨-, rfl, rfl, -⟩
          exact ⟨rfl, rfl⟩
  · rw [if_neg hext]
    exact iff_of_false (by simp) fun h => hext h.1

variable [DecidableEq F]

/-- The load after its first `i` entries. -/
def loadedUpTo (fs : FileSystem F) (json : Json) (globalConfig : AtlasConfig) (dir : Str)
    (disk : Disk F) (names : List Str) (i : ℕ) : Loading F :=
  (names.take i).foldl (loadEntry fs json globalConfig dir) ⟨.new, disk⟩

/-- Place `i` of the listing has a network that is admitted, under the key: its file has
the extension json and is read and parsed when its turn comes, the key is its TLD behind
a single dot, and the lists of the global configuration let the TLD through. -/
structure Admitted (fs : FileSystem F) (json : Json) (globalConfig : AtlasConfig) (dir : Str)
    (disk : Disk F) (names : List Str) (i : ℕ) (key : Str) (config : NetworkConfig) : Prop where
  read : ∃ name, names[i]? = some name ∧ extension name = some "json".toList ∧
    fileOutcome fs json (loadedUpTo fs json globalConfig dir disk names i).disk
      (joinPath dir name) = .parsed config
  key_eq : key = '.' :: trimStartDots config.tld
  whitelisted : globalConfig.whitelist = [] ∨ trimStartDots config.tld ∈ globalConfig.whitelist
  not_blacklisted : trimStartDots config.tld ∉ globalConfig.blacklist

/-- The entry of the table that a place of the listing gives. -/
def entryAt (fs : FileSystem F) (json : Json) (globalConfig : AtlasConfig) (dir : Str)
    (disk : Disk F) (names : List Str) (i : ℕ) : Option (Str × NetworkConfig) :=
  names[i]?.bind
    (fileNetwork fs json globalConfig dir (loadedUpTo fs json globalConfig dir disk names i).disk)

theorem admitted_iff {i : ℕ} {key : Str} {config : NetworkConfig} :
    Admitted fs json globalConfig dir disk names i key config ↔
      entryAt fs json globalConfig dir disk names i = some (key, config) := by
  rw [entryAt, Option.bind_eq_some_iff]
  simp only [fileNetwork_iff, isExcluded_iff]
  constructor
  · rintro ⟨⟨name, hname, hext, hparsed⟩, hkey, hwhite, hblack⟩
    exact ⟨name, hname, hext, hparsed, hkey, hwhite, hblack⟩
  · rintro ⟨name, hname, hext, hparsed, hkey, hwhite, hblack⟩
    exact ⟨⟨name, hname, hext, hparsed⟩, hkey, hwhite, hblack⟩

theorem loadedUpTo_succ {i : ℕ} {name : Str} (hname : names[i]? = some name) :
    loadedUpTo fs json globalConfig dir disk names (i + 1) =
      loadEntry fs json globalConfig dir (loadedUpTo fs json globalConfig dir disk names i)
        name := by
  rw [loadedUpTo, List.take_add_one, hname]
  simp [loadedUpTo]

/-- A place that has nothing to give changes nothing. -/
theorem loadedUpTo_of_none {i : ℕ}
    (hnone : entryAt fs json globalConfig dir disk names i = none) :
    loadedUpTo fs json globalConfig dir disk names (i + 1) =
      loadedUpTo fs json globalConfig dir disk names i := by
  cases hname : names[i]? with
  | none =>
    rw [List.getElem?_eq_none_iff] at hname
    rw [loadedUpTo, loadedUpTo, List.take_of_length_le hname,
      List.take_of_length_le (Nat.le_succ_of_le hname)]
  | some name =>
    rw [entryAt, hname, Option.bind_some] at hnone
    rw [loadedUpTo_succ hname, loadEntry_eq, hnone]

theorem networks_succ (i : ℕ) :
    (loadedUpTo fs json globalConfig dir disk names (i + 1)).registry.networks =
      (entryAt fs json globalConfig dir disk names i).toList.foldl insertNew
        (loadedUpTo fs json globalConfig dir disk names i).registry.networks := by
  cases hentry : entryAt fs json globalConfig dir disk names i with
  | none => rw [loadedUpTo_of_none hentry, Option.toList_none, List.foldl_nil]
  | some entry =>
    obtain ⟨name, hname, hnetwork⟩ := Option.bind_eq_some_iff.mp hentry
    obtain ⟨key, config⟩ := entry
    rw [loadedUpTo_succ hname, loadEntry_eq, hnetwork]
    simp only [Option.toList_some, List.foldl_cons, List.foldl_nil, insertNew]
    split
    · rfl
    · rfl

theorem load_eq_loadedUpTo (hexists : fs.pathExists dir = true) (hisDir : fs.isDir dir = true)
    (hread : fs.readDir s.disk dir = some names) :
    loadFromDir fs json dir globalConfig s =
      loadedUpTo fs json globalConfig dir s.disk names names.length := by
  rw [loadFromDir_found (by simp [isMissing, hexists, hisDir]), loadedUpTo, listed, hread,
    Option.getD_some, List.take_length]

theorem networks_iff (hexists : fs.pathExists dir = true) (hisDir : fs.isDir dir = true)
    (hread : fs.readDir s.disk dir = some names) (key : Str) (config : NetworkConfig) :
    (loadFromDir fs json dir globalConfig s).registry.networks key = some config ↔
      ∃ i, Admitted fs json globalConfig dir s.disk names i key config ∧
        ∀ j < i, ∀ config', ¬ Admitted fs json globalConfig dir s.disk names j key config' := by
  simp only [admitted_iff]
  rw [load_eq_loadedUpTo hexists hisDir hread,
    first_entry_iff (fun i =>
      (loadedUpTo fs json globalConfig dir s.disk names i).registry.networks) rfl networks_succ]
  constructor
  · rintro ⟨i, -, hentry, hfirst⟩
    exact ⟨i, hentry, hfirst⟩
  · rintro ⟨i, hentry, hfirst⟩
    obtain ⟨name, hname, -⟩ := Option.bind_eq_some_iff.mp hentry
    exact ⟨i, (List.getElem?_eq_some_iff.mp hname).1, hentry, hfirst⟩

/-- Without an entry that has nothing to give the load is the same, the disk included. -/
theorem load_without (hexists : fs.pathExists dir = true) (hisDir : fs.isDir dir = true)
    {before after : List Str} {name : Str}
    (hread : fs.readDir s.disk dir = some (before ++ name :: after))
    (hbad : ∀ key config, ¬ Admitted fs json globalConfig dir s.disk (before ++ name :: after)
      before.length key config) :
    loadFromDir (enumerating fs (before ++ after)) json dir globalConfig s =
      loadFromDir fs json dir globalConfig s := by
  have hnone : entryAt fs json globalConfig dir s.disk (before ++ name :: after) before.length =
      none := by
    by_contra hne
    obtain ⟨⟨key, config⟩, hentry⟩ := Option.ne_none_iff_exists'.mp hne
    exact hbad key config (admitted_iff.mpr hentry)
  have hskip := loadedUpTo_of_none hnone
  have htake : (before ++ name :: after).take (before.length + 1) = before ++ [name] := by
    simp [List.take_append]
  rw [loadedUpTo, loadedUpTo, htake, List.take_left] at hskip
  have hfound : isMissing fs dir = false := by simp [isMissing, hexists, hisDir]
  have hfound' : isMissing (enumerating fs (before ++ after)) dir = false := hfound
  rw [loadFromDir_found hfound, loadFromDir_found hfound', listed, listed, hread]
  show (before ++ after).foldl (loadEntry fs json globalConfig dir) ⟨.new, s.disk⟩ =
    (before ++ name :: after).foldl (loadEntry fs json globalConfig dir) ⟨.new, s.disk⟩
  rw [List.append_cons, List.foldl_append, List.foldl_append, hskip]

/-- After a load of a directory that can be listed the registry is the table of the first
admitted files, whatever it was before, and an entry that is not admitted might as well
not be there. -/
theorem load_first_wins (hexists : fs.pathExists dir = true) (hisDir : fs.isDir dir = true)
    (hread : fs.readDir s.disk dir = some names) :
    (∀ key config,
      (loadFromDir fs json dir globalConfig s).registry.networks key = some config ↔
        ∃ i, Admitted fs json globalConfig dir s.disk names i key config ∧
          ∀ j < i, ∀ config', ¬ Admitted fs json globalConfig dir s.disk names j key config') ∧
      (∀ prior, loadFromDir fs json dir globalConfig ⟨prior, s.disk⟩ =
        loadFromDir fs json dir globalConfig s) ∧
      ∀ before name after, names = before ++ name :: after →
        (∀ key config, ¬ Admitted fs json globalConfig dir s.disk names before.length key
          config) →
        loadFromDir (enumerating fs (before ++ after)) json dir globalConfig s =
          loadFromDir fs json dir globalConfig s := by
  refine ⟨networks_iff hexists hisDir hread, fun prior => ?_, ?_⟩
  · have hfound : isMissing fs dir = false := by simp [isMissing, hexists, hisDir]
    rw [loadFromDir_found hfound, loadFromDir_found hfound]
  · rintro before name after rfl hbad
    exact load_without hexists hisDir hread hbad

def mixedNames : List Str := ["notes.txt", "bad.json", "evil.json", "a.json", "b.json"]

def mixedDisk : Disk Str :=
  diskOf [("networks/bad.json", "not a network"), ("networks/evil.json", networkJson "evil" "evil"),
    ("networks/a.json", networkJson "main" "kin"), ("networks/b.json", networkJson "test" ".kin")]

def mixedJson : Json := jsonOf [("evil", "evil"), ("main", "kin"), ("test", ".kin")]

def withoutEvil : AtlasConfig := { openConfig with blacklist := ["evil"] }

theorem load_first_wins_mixed :
    (loadFromDir (directory "networks" mixedNames) mixedJson "networks" withoutEvil
        ⟨⟨fun _ => some (network "old" "old")⟩, mixedDisk⟩).registry.networks ".kin".toList =
      some (network "main" "kin") := by
  have hearlier : ∀ j < 3, entryAt (directory "networks" mixedNames) mixedJson withoutEvil
      "networks" mixedDisk mixedNames j = none := by
    decide +kernel
  have hread : (directory "networks" mixedNames).readDir mixedDisk "networks" = some mixedNames :=
    rfl
  refine ((load_first_wins (by decide) (by decide) hread).1 _ _).mpr
    ⟨3, admitted_iff.mpr (by decide +kernel), fun j hj config' hadmitted => ?_⟩
  rw [admitted_iff, hearlier j hj] at hadmitted
  cases hadmitted

/-- The directory is absent, is none, or its entries cannot be enumerated. -/
def CannotEnumerate (fs : FileSystem F) (dir : Str) (disk : Disk F) : Prop :=
  fs.pathExists dir = false ∨ fs.isDir dir = false ∨ fs.readDir disk dir = none

/-- A load that cannot enumerate its directory keeps the registry exactly when the
directory is missing, or there was nothing in the registry to lose. -/
theorem failed_reload_keeps_iff (fs : FileSystem F) (json : Json) (globalConfig : AtlasConfig)
    (dir : Str) (s : Loading F) :
    (CannotEnumerate fs dir s.disk →
        (loadFromDir fs json dir globalConfig s).registry.networks = s.registry.networks) ↔
      fs.pathExists dir = false ∨ fs.isDir dir = false ∨ fs.readDir s.disk dir ≠ none ∨
        s.registry.networks = fun _ => none := by
  by_cases hmissing : fs.pathExists dir = false ∨ fs.isDir dir = false
  · have hkept : loadFromDir fs json dir globalConfig s = s :=
      loadFromDir_missing (by simpa [isMissing] using hmissing) s
    rw [hkept]
    exact iff_of_true (fun _ => rfl) (hmissing.imp_right Or.inl)
  · rw [not_or, Bool.not_eq_false, Bool.not_eq_false] at hmissing
    obtain ⟨hexists, hisDir⟩ := hmissing
    cases hread : fs.readDir s.disk dir with
    | some names =>
      refine iff_of_true (fun hfailed => ?_) (by simp)
      simp [CannotEnumerate, hexists, hisDir, hread] at hfailed
    | none =>
      have hcleared : (loadFromDir fs json dir globalConfig s).registry.networks =
          fun _ => none := by
        rw [loadFromDir_found (by simp [isMissing, hexists, hisDir]), listed, hread]
        rfl
      rw [hcleared]
      simp only [CannotEnumerate, hexists, hisDir, hread, ne_eq, not_true_eq_false, false_or,
        Bool.true_eq_false, or_true, forall_const]
      exact eq_comm

/-- The networks directory, whose listing the operating system refuses. -/
def unlistable : FileSystem Str := { directory "networks" [] with readDir := fun _ _ => none }

theorem unlistable_clears :
    ∃ registry : TldRegistry, CannotEnumerate unlistable "networks" twoTlds ∧
      (loadFromDir unlistable (jsonOf []) "networks" openConfig
        ⟨registry, twoTlds⟩).registry.networks ≠ registry.networks := by
  refine ⟨⟨fun tld => if tld = ".kin".toList then some (network "main" "kin") else none⟩,
    Or.inr (Or.inr rfl), fun heq => ?_⟩
  have hkin := congrFun heq ".kin".toList
  revert hkin
  decide

end KineticAtlas.DirectoryLoad
