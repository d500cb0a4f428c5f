import Mathlib.Logic.Function.Iterate
import Mathlib.Tactic.Common
import Mathlib.Data.List.Infix

/-!
# Creating the directories of the cache

`createDirectoryRecursively` walks up from a path until the parent of where it is
exists, creates a directory there and starts again from the path. The file system
is what `nn::fs::GetEntryType` says of each path; what `nn::fs::CreateDirectory` does
to it is a parameter. The walk ends exactly when it meets a directory behind free
paths only. Where there is none it goes on at the first part of the path forever, and
a file in the way makes it create the same directory forever.
-/

namespace BfMultiplayer.CacheDirectories

/-- A path, as its characters. -/
abbrev Path := List Char

/-- What a path can be. -/
inductive EntryType where
  /-- A directory. -/
  | directory
  /-- A file. -/
  | file
  deriving DecidableEq, Repr

/-- What there is at each path. -/
abbrev Entries := Path → Option EntryType

/-- `rfindIndex` of a string: the index of the last place of a character. -/
def rfindIndex (path : Path) (c : Char) : Option ℕ :=
  (path.reverse.findIdx? (· == c)).map fun i => path.length - 1 - i

/-- `getParentPath`, for a path that the fixed string holds. -/
def getParentPath (filePath : Path) : Path :=
  match rfindIndex filePath '/' with
  | none => filePath
  | some idx => filePath.take idx

/-- `directoryExists`. -/
def directoryExists (fs : Entries) (dirPath : Path) : Bool := fs dirPath = some .directory

/-- The entry of a path that exists as a directory. -/
@[simp] theorem directoryExists_iff {fs : Entries} {dirPath : Path} :
    directoryExists fs dirPath = true ↔ fs dirPath = some .directory := by
  simp [directoryExists]

/-- The loop of `createDirectoryRecursively`, which calls the function itself. Nothing
is a walk that has not ended after `fuel` turns. -/
def createLoop (create : Entries → Path → Entries) (dirPath : Path) :
    ℕ → Entries → Path → Option Entries
  | 0, _, _ => none
  | fuel + 1, fs, path =>
    if directoryExists fs path then some fs
    else
      let parent := getParentPath path
      if directoryExists fs parent then
        (createLoop create dirPath fuel (create fs path) dirPath).bind fun fs =>
          createLoop create dirPath fuel fs parent
      else createLoop create dirPath fuel fs parent

/-- `createDirectoryRecursively`, as far as `fuel` turns go. -/
def createDirectoryRecursively (create : Entries → Path → Entries) (fuel : ℕ) (fs : Entries)
    (dirPath : Path) : Option Entries := createLoop create dirPath fuel fs dirPath

/-- What `nn::fs::CreateDirectory` does: it makes a directory at a free path in a
directory, and leaves a path alone that is taken. -/
structure CreatesDirectories (create : Entries → Path → Entries) : Prop where
  /-- A free path in a directory becomes a directory. -/
  created : ∀ fs path, fs path = none → fs (getParentPath path) = some .directory →
    create fs path = Function.update fs path (some .directory)
  /-- A path that is taken stays. -/
  refused : ∀ fs path, fs path ≠ none → create fs path = fs

/-- A path behind several steps up. -/
def ancestor (path : Path) (n : ℕ) : Path := getParentPath^[n] path

/-- The walk up from a path meets a directory after `n` steps and free paths before. -/
structure Reaches (fs : Entries) (path : Path) (n : ℕ) : Prop where
  /-- The directory. -/
  found : fs (ancestor path n) = some .directory
  /-- What is in front of it is free. -/
  free : ∀ m < n, fs (ancestor path m) = none

/-- The entries with directories at the first `n` paths of the walk. -/
def withDirectories (fs : Entries) (path : Path) (n : ℕ) : Entries :=
  fun p => if ∃ m < n, ancestor path m = p then some .directory else fs p

/-- One step up. -/
theorem ancestor_succ (path : Path) (n : ℕ) :
    ancestor path (n + 1) = getParentPath (ancestor path n) :=
  Function.iterate_succ_apply' getParentPath n path

/-- Steps up from a path up. -/
theorem ancestor_add (path : Path) (m n : ℕ) :
    ancestor path (m + n) = ancestor (ancestor path n) m := Function.iterate_add_apply _ m n path

/-- Two equal paths of a walk go on equally. -/
theorem ancestor_eq_of_eq {path : Path} {m n : ℕ} (h : ancestor path m = ancestor path n) (k : ℕ) :
    ancestor path (k + m) = ancestor path (k + n) := by
  rw [ancestor_add, ancestor_add, h]

/-- The paths up to the first directory are different. -/
theorem Reaches.ne {fs : Entries} {path : Path} {n m k : ℕ} (h : Reaches fs path n) (hm : m < k)
    (hk : k < n) : ancestor path m ≠ ancestor path k := by
  intro heq
  -- the directory would be met earlier, among the paths that are free
  have hsame := ancestor_eq_of_eq heq (n - k)
  rw [Nat.sub_add_cancel hk.le] at hsame
  have hfree := h.free (n - k + m) (by omega)
  rw [hsame, h.found] at hfree
  cases hfree

/-- A walk meets its first directory once. -/
theorem Reaches.unique {fs : Entries} {path : Path} {n n' : ℕ} (h : Reaches fs path n)
    (h' : Reaches fs path n') : n = n' := by
  rcases Nat.lt_trichotomy n n' with hlt | rfl | hlt
  · have hfree := h'.free n hlt
    rw [h.found] at hfree
    cases hfree
  · rfl
  · have hfree := h.free n' hlt
    rw [h'.found] at hfree
    cases hfree

/-- The path in front of the first directory, made a directory. -/
theorem Reaches.update {fs : Entries} {path : Path} {n : ℕ} (h : Reaches fs path (n + 1)) :
    Reaches (Function.update fs (ancestor path n) (some .directory)) path n := by
  refine ⟨Function.update_self _ _ _, fun m hm => ?_⟩
  rw [Function.update_of_ne (h.ne hm (Nat.lt_succ_self n))]
  exact h.free m (by omega)

/-- A walk that has ended stays so with more turns. -/
theorem createLoop_mono {create : Entries → Path → Entries} {dirPath : Path} {fuel : ℕ} :
    ∀ {fuel' : ℕ} {fs fs' : Entries} {path : Path}, fuel ≤ fuel' →
      createLoop create dirPath fuel fs path = some fs' →
      createLoop create dirPath fuel' fs path = some fs' := by
  induction fuel with
  | zero =>
    intro fuel' fs fs' path _ h
    cases h
  | succ fuel ih =>
    intro fuel' fs fs' path hle h
    obtain ⟨more, rfl⟩ : ∃ more, fuel' = more + 1 := ⟨fuel' - 1, by omega⟩
    have hmore : fuel ≤ more := Nat.le_of_succ_le_succ hle
    rw [createLoop] at h ⊢
    split at h
    · rename_i hdir
      rw [if_pos hdir]
      exact h
    · rename_i hdir
      rw [if_neg hdir]
      dsimp only at h ⊢
      split at h
      · rename_i hparent
        rw [if_pos hparent]
        obtain ⟨fs₁, hinner, hrest⟩ := Option.bind_eq_some_iff.mp h
        rw [ih hmore hinner, Option.bind_some]
        exact ih hmore hrest
      · rename_i hparent
        rw [if_neg hparent]
        exact ih hmore h

/-- Steps up that meet no directory. -/
theorem createLoop_up {create : Entries → Path → Entries} {dirPath : Path} {fs : Entries}
    (fuel n : ℕ) :
    ∀ {path : Path}, (∀ m ≤ n, fs (ancestor path m) ≠ some .directory) →
      createLoop create dirPath (fuel + n) fs path =
        createLoop create dirPath fuel fs (ancestor path n) := by
  induction n with
  | zero => exact fun _ => rfl
  | succ n ih =>
    intro path hnone
    have hhere : ¬directoryExists fs path = true := by
      rw [directoryExists_iff]
      exact hnone 0 (Nat.zero_le _)
    have hparent : ¬directoryExists fs (getParentPath path) = true := by
      rw [directoryExists_iff]
      exact hnone 1 (by omega)
    rw [← Nat.add_assoc, createLoop, if_neg hhere]
    dsimp only
    rw [if_neg hparent, ih fun m hm => ?_]
    · rfl
    · exact hnone (m + 1) (by omega)

/-- The paths behind the free ones are the same after the last one is created. -/
theorem withDirectories_update (fs : Entries) (path : Path) (n : ℕ) :
    withDirectories (Function.update fs (ancestor path n) (some .directory)) path n =
      withDirectories fs path (n + 1) := by
  funext p
  unfold withDirectories
  by_cases hlow : ∃ m < n, ancestor path m = p
  · obtain ⟨m, hm, hp⟩ := hlow
    rw [if_pos ⟨m, hm, hp⟩, if_pos ⟨m, by omega, hp⟩]
  · rw [if_neg hlow]
    by_cases hp : p = ancestor path n
    · rw [if_pos ⟨n, Nat.lt_succ_self n, hp.symm⟩, hp, Function.update_self]
    · rw [Function.update_of_ne hp, if_neg]
      rintro ⟨m, hm, heq⟩
      rcases Nat.lt_succ_iff_lt_or_eq.mp hm with hlt | rfl
      · exact hlow ⟨m, hlt, heq⟩
      · exact hp heq.symm

/-- Where the walk reaches a directory, the free paths become directories. -/
theorem createLoop_of_reaches {create : Entries → Path → Entries}
    (hcreate : CreatesDirectories create) {dirPath : Path} {n : ℕ} :
    ∀ {fs : Entries}, Reaches fs dirPath n →
      ∃ fuel, createLoop create dirPath fuel fs dirPath = some (withDirectories fs dirPath n) := by
  induction n with
  | zero =>
    intro fs h
    refine ⟨1, ?_⟩
    have hdir : directoryExists fs dirPath = true := directoryExists_iff.mpr h.found
    have hsame : withDirectories fs dirPath 0 = fs := by
      funext p
      simp [withDirectories]
    rw [createLoop, if_pos hdir, hsame]
  | succ n ih =>
    intro fs h
    obtain ⟨fuel, hinner⟩ := ih h.update
    rw [withDirectories_update] at hinner
    have hup := ancestor_succ dirPath n
    have hnone : ∀ m ≤ n, fs (ancestor dirPath m) ≠ some .directory := by
      intro m hm
      rw [h.free m (by omega)]
      exact Option.some_ne_none _ |>.symm
    have hparent : directoryExists fs (getParentPath (ancestor dirPath n)) = true := by
      rw [directoryExists_iff, ← hup]
      exact h.found
    have hcreated := hcreate.created fs (ancestor dirPath n) (h.free n (Nat.lt_succ_self n))
      (by rw [← hup]; exact h.found)
    -- after the inner walk the parent is still a directory, which ends the outer one
    have hlast : directoryExists (withDirectories fs dirPath (n + 1))
        (getParentPath (ancestor dirPath n)) = true := by
      rw [directoryExists_iff, ← hup]
      unfold withDirectories
      split
      · rfl
      · exact h.found
    refine ⟨fuel + 2 + n, ?_⟩
    rw [createLoop_up _ _ hnone, createLoop,
      if_neg (directoryExists_iff.not.mpr (hnone n le_rfl))]
    dsimp only
    rw [if_pos hparent, hcreated, createLoop_mono (Nat.le_succ fuel) hinner, Option.bind_some,
      createLoop, if_pos hlast]

/-- Creating the path below the first directory does not make a walk reach a directory
that a file keeps it from. -/
theorem reaches_of_update {fs : Entries} {path : Path} {i n : ℕ}
    (hnone : ∀ j ≤ i, fs (ancestor path j) ≠ some .directory)
    (hparent : fs (ancestor path (i + 1)) = some .directory)
    (hfree : fs (ancestor path i) = none)
    (h : Reaches (Function.update fs (ancestor path i) (some .directory)) path n) :
    Reaches fs path (i + 1) := by
  have hle : n ≤ i := by
    by_contra hlt
    have hbefore := h.free i (by omega)
    rw [Function.update_self] at hbefore
    cases hbefore
  have hsame : ancestor path n = ancestor path i := by
    by_contra hne
    have hfound := h.found
    rw [Function.update_of_ne hne] at hfound
    exact hnone n hle hfound
  -- a walk that came back to the same path would have met the parent before
  have hn : n = i := by
    by_contra hne
    have hback : ancestor path (n + 1) = ancestor path (i + 1) := by
      rw [ancestor_succ, ancestor_succ, hsame]
    exact hnone (n + 1) (by omega) (hback ▸ hparent)
  subst hn
  refine ⟨hparent, fun m hm => ?_⟩
  rcases Nat.lt_succ_iff_lt_or_eq.mp hm with hlt | rfl
  · have hbefore := h.free m hlt
    by_cases heq : ancestor path m = ancestor path n
    · rw [heq]
      exact hfree
    · rwa [Function.update_of_ne heq] at hbefore
  · exact hfree

/-- A walk that reaches no directory does not start at one. -/
theorem not_directory_of_not_reaches {fs : Entries} {path : Path}
    (h : ∀ n, ¬Reaches fs path n) : ∀ j ≤ 0, fs (ancestor path j) ≠ some .directory := by
  intro j hj hdir
  refine h j ⟨hdir, fun m hm => ?_⟩
  omega

/-- Where the walk reaches no directory it does not end. -/
theorem createLoop_eq_none {create : Entries → Path → Entries}
    (hcreate : CreatesDirectories create) {dirPath : Path} (fuel : ℕ) :
    ∀ {fs : Entries} {i : ℕ}, (∀ n, ¬Reaches fs dirPath n) →
      (∀ j ≤ i, fs (ancestor dirPath j) ≠ some .directory) →
      createLoop create dirPath fuel fs (ancestor dirPath i) = none := by
  induction fuel with
  | zero => exact fun _ _ => rfl
  | succ fuel ih =>
    intro fs i hreach hnone
    rw [createLoop, if_neg (directoryExists_iff.not.mpr (hnone i le_rfl))]
    dsimp only
    rw [← ancestor_succ]
    by_cases hparent : fs (ancestor dirPath (i + 1)) = some .directory
    · rw [if_pos (directoryExists_iff.mpr hparent)]
      -- the function calls itself from the path again, and that walk does not end either
      have hinner : createLoop create dirPath fuel (create fs (ancestor dirPath i)) dirPath
          = none := by
        by_cases hfree : fs (ancestor dirPath i) = none
        · rw [hcreate.created fs _ hfree (by rw [← ancestor_succ]; exact hparent)]
          have hstill : ∀ n, ¬Reaches
              (Function.update fs (ancestor dirPath i) (some .directory)) dirPath n :=
            fun n h => hreach (i + 1) (reaches_of_update hnone hparent hfree h)
          exact ih (i := 0) hstill (not_directory_of_not_reaches hstill)
        · rw [hcreate.refused fs _ hfree]
          exact ih (i := 0) hreach (not_directory_of_not_reaches hreach)
      rw [hinner, Option.bind_none]
    · rw [if_neg (directoryExists_iff.not.mpr hparent)]
      refine ih hreach fun j hj => ?_
      rcases Nat.le_succ_iff.mp hj with hle | rfl
      · exact hnone j hle
      · exact hparent

/-- `createDirectoryRecursively` ends exactly when the walk up meets a directory behind
free paths only, and then these are the directories it has created. -/
theorem createDirectoryRecursively_eq_some_iff {create : Entries → Path → Entries}
    (hcreate : CreatesDirectories create) (fs fs' : Entries) (dirPath : Path) :
    (∃ fuel, createDirectoryRecursively create fuel fs dirPath = some fs') ↔
      ∃ n, Reaches fs dirPath n ∧ fs' = withDirectories fs dirPath n := by
  constructor
  · rintro ⟨fuel, h⟩
    by_cases hreach : ∃ n, Reaches fs dirPath n
    · obtain ⟨n, hn⟩ := hreach
      obtain ⟨enough, hwalk⟩ := createLoop_of_reaches hcreate hn
      have hlong := createLoop_mono (Nat.le_max_left fuel enough) h
      rw [createLoop_mono (Nat.le_max_right fuel enough) hwalk] at hlong
      exact ⟨n, hn, (Option.some.inj hlong).symm⟩
    · have hnone : ∀ n, ¬Reaches fs dirPath n := fun n hn => hreach ⟨n, hn⟩
      have hstuck : createLoop create dirPath fuel fs dirPath = none :=
        createLoop_eq_none hcreate fuel (i := 0) hnone (not_directory_of_not_reaches hnone)
      rw [createDirectoryRecursively, hstuck] at h
      cases h
  · rintro ⟨n, hn, rfl⟩
    exact createLoop_of_reaches hcreate hn

/-- A file system that creates a directory where it can. -/
def createDirectory (fs : Entries) (path : Path) : Entries :=
  if fs path = none ∧ fs (getParentPath path) = some .directory then
    Function.update fs path (some .directory)
  else fs

/-- It creates directories as the walk needs it. -/
theorem createDirectory_creates : CreatesDirectories createDirectory where
  created := fun _ _ hfree hparent => if_pos ⟨hfree, hparent⟩
  refused := fun _ _ htaken => if_neg fun h => htaken h.1

/-- A file system with one directory. -/
def onlyDirectory (path : Path) : Entries := fun p => if p = path then some .directory else none

/-- The cache and a directory of it, created on a card that has the directory above. -/
theorem createDirectoryRecursively_cache :
    ∃ fuel, createDirectoryRecursively createDirectory fuel
        (onlyDirectory "sd:/BowsersFuryOnline".toList)
        "sd:/BowsersFuryOnline/cache/ObjectData".toList =
      some (withDirectories (onlyDirectory "sd:/BowsersFuryOnline".toList)
        "sd:/BowsersFuryOnline/cache/ObjectData".toList 2) := by
  refine (createDirectoryRecursively_eq_some_iff createDirectory_creates _ _ _).mpr
    ⟨2, ⟨?_, ?_⟩, rfl⟩ <;> decide +kernel

end BfMultiplayer.CacheDirectories
