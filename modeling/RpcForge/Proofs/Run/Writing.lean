import RpcForge.Proofs.Run.Directories
import RpcForge.Run.Generation

/-!
# Writing packages

What writing a package does to every place of a file tree: outside of the directory of the package
no file changes, and only directories that the path of the package leads through are made. Inside,
what an earlier run has left is removed, if the path leads there, and the files of the package are
written.
-/

namespace RpcForge

open FilePath

/-- The path of a file of a package is made of plain names. -/
structure SourceFile.IsPlain (file : SourceFile) : Prop where
  /-- The path is not empty. -/
  ne_nil : file.path ≠ []
  /-- Its names are plain. -/
  names : ∀ name ∈ file.path, FilePath.IsPlain name

instance (file : SourceFile) : Decidable file.IsPlain :=
  decidable_of_iff (file.path ≠ [] ∧ ∀ name ∈ file.path, FilePath.IsPlain name)
    ⟨fun ⟨a, b⟩ ↦ ⟨a, b⟩, fun ⟨a, b⟩ ↦ ⟨a, b⟩⟩

namespace Generation

variable {directory : String} {file : SourceFile}

/-! ## Paths of files -/

private theorem ofText_filePath (h : file.IsPlain) :
    ofText (filePath directory file) = ofText directory ++ file.path :=
  ofText_joinPaths h.ne_nil h.names directory

private theorem route_filePath (h : file.IsPlain) :
    route (filePath directory file) = route directory ++ file.path :=
  route_joinPaths h.ne_nil h.names directory

private theorem start_filePath (h : file.IsPlain) :
    start (filePath directory file) = start directory :=
  start_joinPaths h.ne_nil h.names directory

private theorem endsPlain_filePath (h : file.IsPlain) : EndsPlain (filePath directory file) :=
  endsPlain_joinPaths h.ne_nil h.names directory

/-- The directory of a file is told by all names in its path but the last one. -/
private theorem route_parentPath (directory : String) (h : file.IsPlain) :
    start (parentPath directory file) = start directory ∧
      route (parentPath directory file) = route directory ++ file.path.dropLast := by
  unfold parentPath
  split
  · next hd => simp [hd]
  · next parents hn =>
    have hp : ∀ name ∈ file.path.dropLast, FilePath.IsPlain name :=
      fun name hm ↦ h.names name (List.dropLast_subset _ hm)
    exact ⟨start_joinPaths hn hp directory, route_joinPaths hn hp directory⟩

/-- The path of a file leads on from that of its directory by its last name. -/
private theorem exists_last (directory : String) (h : file.IsPlain) :
    ∃ name, route (filePath directory file) = route (parentPath directory file) ++ [name] ∧
      ofText directory ++ file.path = ofText (parentPath directory file) ++ [name] := by
  obtain ⟨parents, name, hn⟩ := (List.eq_nil_or_concat' file.path).resolve_left h.ne_nil
  have hp : ∀ x ∈ parents, FilePath.IsPlain x := fun x hx ↦ h.names x (by simp [hn, hx])
  have hd : file.path.dropLast = parents := by rw [hn, List.dropLast_concat]
  obtain ⟨hs, hr⟩ := route_parentPath directory h
  refine ⟨name, ?_, ?_⟩
  · rw [route_filePath h, hr, hd, hn, List.append_assoc]
  · rw [ofText, ofText, hs, hr, hd, hn, ending_append, ending_plain hp, List.append_assoc]

/-- The path of the directory of a file leads through the places that the path of the package leads
through, and through directories in it. -/
theorem mem_way_parentPath (h : file.IsPlain) {q : FilePath} :
    q ∈ way (parentPath directory file) ↔ q ∈ way directory ∨
      ∃ first, first ≠ [] ∧ first <+: file.path.dropLast ∧ q = ofText directory ++ first := by
  have hp : ∀ name ∈ file.path.dropLast, FilePath.IsPlain name :=
    fun name hm ↦ h.names name (List.dropLast_subset _ hm)
  obtain ⟨hs, hr⟩ := route_parentPath directory h
  rw [way, hs, hr, passed_append, List.mem_append, mem_passed_plain hp]
  rfl

/-! ## Writing files -/

/-- The paths of a file and of its directory can lead somewhere. -/
structure Fits (directory : String) (file : SourceFile) : Prop where
  /-- The path of the file can lead somewhere. -/
  file_path : check (filePath directory file) = .ok ()
  /-- The path of its directory can lead somewhere, unless it is empty. -/
  parent_path : parentPath directory file = "" ∨ check (parentPath directory file) = .ok ()
  /-- No name is too long. -/
  short : ∀ piece ∈ route (filePath directory file), piece = ".." ∨ piece.utf8ByteSize ≤ nameLimit

/-- What writing files does to a tree. -/
structure Written (directory : String) (tree left : FileTree) (files : List SourceFile) : Prop where
  /-- The files are there, and in all other places those of before. -/
  get?_iff : ∀ q contents, left.get? q = some contents ↔
    (∃ file ∈ files, q = ofText directory ++ file.path ∧ file.contents = contents) ∨
      (∀ file ∈ files, q ≠ ofText directory ++ file.path) ∧ tree.get? q = some contents
  /-- The directories are those of before and those that lead to the files. -/
  isDirectory_iff : ∀ q, left.isDirectory q = true ↔
    tree.isDirectory q = true ∨ ∃ file ∈ files, q ∈ way (parentPath directory file)
  /-- The tree can be as it is, if it could before. -/
  wellFormed : tree.WellFormed → left.WellFormed
  /-- All paths can lead somewhere. -/
  fits : ∀ file ∈ files, Fits directory file

/-- Where no file is written, there is what was there before. -/
private theorem Written.get?_of_forall_ne {tree left : FileTree} {files : List SourceFile}
    (h : Written directory tree left files) {q : FilePath}
    (hn : ∀ file ∈ files, q ≠ ofText directory ++ file.path) : left.get? q = tree.get? q := by
  apply Option.ext
  intro contents
  rw [h.get?_iff]
  constructor
  · rintro (⟨file, hf, he, -⟩ | ⟨-, hc⟩)
    · exact absurd he (hn file hf)
    · exact hc
  · exact fun hc ↦ .inr ⟨hn, hc⟩

/-- What writing a file and then others does to a tree. -/
private theorem Written.cons {tree next left : FileTree} {files : List SourceFile}
    (hd : file.path ∉ files.map SourceFile.path) (h : Written directory tree next [file])
    (h' : Written directory next left files) : Written directory tree left (file :: files) := by
  refine ⟨fun q contents ↦ ?_, fun q ↦ ?_, fun wf ↦ h'.wellFormed (h.wellFormed wf), ?_⟩
  · by_cases hq : q = ofText directory ++ file.path
    · -- No other file has this path.
      have hn : ∀ other ∈ files, q ≠ ofText directory ++ other.path := by
        intro other ho he
        rw [hq, List.append_cancel_left_eq] at he
        exact hd (List.mem_map.mpr ⟨other, ho, he.symm⟩)
      rw [h'.get?_of_forall_ne hn, h.get?_iff]
      constructor
      · rintro (⟨f, hf, he, hc⟩ | ⟨hf, -⟩)
        · exact .inl ⟨f, List.mem_cons.mpr (.inl (List.mem_singleton.mp hf)), he, hc⟩
        · exact absurd hq (hf file (.head _))
      · rintro (⟨f, hf, he, hc⟩ | ⟨hf, -⟩)
        · rcases List.mem_cons.mp hf with rfl | hf
          · exact .inl ⟨f, .head _, he, hc⟩
          · exact absurd he (hn f hf)
        · exact absurd hq (hf file (.head _))
    · rw [h'.get?_iff, h.get?_of_forall_ne (by simpa using hq)]
      simp [hq]
  · rw [h'.isDirectory_iff, h.isDirectory_iff]
    simp [or_assoc]
  · exact List.forall_mem_cons.mpr ⟨h.fits file (.head _), h'.fits⟩

/-- What writing one file does to a tree. -/
private theorem written_file {tree mid next : FileTree} (h : file.IsPlain)
    (hm : tree.makeDirectories (parentPath directory file) = (mid, .ok ()))
    (hw : mid.write (filePath directory file) file.contents = .ok next) :
    Written directory tree next [file] := by
  have hmade := FileTree.makeDirectories_eq_ok hm
  rw [FileTree.write, bind_eq_ok_iff] at hw
  obtain ⟨place, hr, hw⟩ := hw
  obtain ⟨hc, ho, rfl⟩ := (FileTree.resolve_eq_ok_iff (endsPlain_filePath h)).mp hr
  rw [ofText_filePath h] at hw
  by_cases hd : mid.isDirectory (ofText directory ++ file.path) = true
  · simp [hd] at hw
  · simp only [hd] at hw
    cases hw
    rw [Bool.not_eq_true] at hd
    refine ⟨fun q contents ↦ ?_, fun q ↦ ?_, fun wf ↦ ?_, fun f hf ↦ ?_⟩
    · rw [FileTree.get?_put, hmade.get?_eq]
      by_cases hq : q = ofText directory ++ file.path
      · simp [hq]
      · simp [hq]
    · rw [FileTree.isDirectory_put, hmade.isDirectory_iff]
      simp
    · -- The last name leads on from a directory.
      obtain ⟨name, hr, hq⟩ := exists_last directory h
      obtain ⟨hs, -⟩ := route_parentPath directory h
      rw [hr, start_filePath h, ← hs, FileTree.open_append] at ho
      refine (hmade.wellFormed wf).put hd ?_ _
      rw [hq, List.dropLast_concat]
      exact ho.2.1.2
    · rw [List.mem_singleton.mp hf]
      exact ⟨hc, FileTree.check_of_makeDirectories hm, ho.short⟩

/-- What writing files does to a tree, if they have different paths. -/
private theorem written_files {tree left : FileTree} {files : List SourceFile}
    (hp : ∀ file ∈ files, file.IsPlain) (hd : (files.map SourceFile.path).Nodup)
    (h : writeFiles directory tree files = (left, .ok ())) :
    Written directory tree left files := by
  induction files generalizing tree with
  | nil =>
    cases h
    exact ⟨by simp, by simp, id, by simp⟩
  | cons file files ih =>
    obtain ⟨hp₁, hp₂⟩ := List.forall_mem_cons.mp hp
    rw [List.map_cons, List.nodup_cons] at hd
    rw [writeFiles] at h
    cases hm : tree.makeDirectories (parentPath directory file) with
    | mk mid result =>
      cases result with
      | error e =>
        simp only [hm] at h
        cases h
      | ok _ =>
        cases hw : mid.write (filePath directory file) file.contents with
        | error e =>
          simp only [hm, hw] at h
          cases h
        | ok next =>
          simp only [hm, hw] at h
          exact (written_file hp₁ hm hw).cons hd.1 (ih hp₂ hd.2 h)

/-! ## Writing a package -/

/-- A package is written into a tree from which its directory is removed, if its path leads to
something, and otherwise into the tree as it is. -/
private theorem writePackage_eq_ok {tree left : FileTree} {files : List SourceFile}
    (h : writePackage directory tree files = (left, .ok ())) :
    ∃ cleared, writeFiles directory cleared files = (left, .ok ()) ∧
      (tree.holds directory = true ∧ cleared = tree.without (ofText directory) ∨
        tree.holds directory = false ∧ cleared = tree) := by
  unfold writePackage at h
  by_cases hh : tree.holds directory = true
  · rw [if_pos hh] at h
    cases hr : tree.removeDirectory directory with
    | error e =>
      simp only [hr] at h
      cases h
    | ok cleared =>
      simp only [hr] at h
      refine ⟨cleared, h, .inl ⟨hh, ?_⟩⟩
      rw [FileTree.removeDirectory, bind_eq_ok_iff] at hr
      obtain ⟨place, hp, hr⟩ := hr
      rw [FileTree.eq_ofText_of_resolve hp] at hr
      split at hr
      · cases hr
      · split at hr
        · cases hr
        · exact (Except.ok.inj hr).symm
  · rw [if_neg hh] at h
    exact ⟨tree, h, .inr ⟨Bool.eq_false_iff.mpr hh, rfl⟩⟩

/-- A tree that differs from another one in a directory at most. -/
structure SameOutside (directory : String) (tree cleared : FileTree) : Prop where
  /-- The files outside are the same. -/
  get?_eq : ∀ q, q.isWithin (ofText directory) = false → cleared.get? q = tree.get? q
  /-- The directories outside are the same. -/
  isDirectory_iff : ∀ q, q.isWithin (ofText directory) = false →
    (cleared.isDirectory q = true ↔ tree.isDirectory q = true)
  /-- The tree can be as it is, if the other one can. -/
  wellFormed : tree.WellFormed → cleared.WellFormed

private theorem SameOutside.refl (directory : String) (tree : FileTree) :
    SameOutside directory tree tree :=
  ⟨fun _ _ ↦ rfl, fun _ _ ↦ Iff.rfl, id⟩

/-- Outside of its directory, clearing changes nothing. -/
private theorem sameOutside_without (directory : String) (tree : FileTree) :
    SameOutside directory tree (tree.without (ofText directory)) := by
  refine ⟨fun q hq ↦ ?_, fun q hq ↦ ?_, fun wf ↦ wf.without _⟩
  · simp [FileTree.get?_without, hq]
  · rw [FileTree.isDirectory_without]
    constructor
    · rintro (hg | ⟨hd, -⟩)
      · exact FileTree.isDirectory_of_isGiven tree hg
      · exact hd
    · exact fun hd ↦ .inr ⟨hd, hq⟩

/-- What writing a package does to a tree. -/
structure Renewed (directory : String) (tree left : FileTree) (files : List SourceFile) : Prop where
  /-- Outside of its directory the files are the same. -/
  file_outside : ∀ q, q.isWithin (ofText directory) = false → left.get? q = tree.get? q
  /-- Outside of its directory no directory is lost, and those that lead to it are there. -/
  directory_outside : ∀ q, q.isWithin (ofText directory) = false →
    (left.isDirectory q = true ↔ tree.isDirectory q = true ∨ q ∈ way directory)
  /-- Whatever the path of the directory leads through is a directory. -/
  directory_on_way : ∀ q ∈ way directory, left.isDirectory q = true
  /-- The files are there. -/
  file_written : ∀ file ∈ files, left.get? (ofText directory ++ file.path) = some file.contents
  /-- The tree can be as it is, if it could before. -/
  wellFormed : tree.WellFormed → left.WellFormed
  /-- All paths can lead somewhere. -/
  fits : ∀ file ∈ files, Fits directory file

/-- Files of a package: there are some, their paths are plain, and no two of them have the same. -/
structure AreFiles (files : List SourceFile) : Prop where
  /-- There are some. -/
  ne_nil : files ≠ []
  /-- Their paths are plain. -/
  plain : ∀ file ∈ files, file.IsPlain
  /-- Their paths are different. -/
  nodup : (files.map SourceFile.path).Nodup

instance (files : List SourceFile) : Decidable (AreFiles files) :=
  decidable_of_iff
    (files ≠ [] ∧ (∀ file ∈ files, file.IsPlain) ∧ (files.map SourceFile.path).Nodup)
    ⟨fun ⟨a, b, c⟩ ↦ ⟨a, b, c⟩, fun ⟨a, b, c⟩ ↦ ⟨a, b, c⟩⟩

variable {tree left : FileTree} {files : List SourceFile}

/-- What a package whose directory was cleared does to a tree. -/
theorem renewed (ha : AreFiles files) (h : writePackage directory tree files = (left, .ok ())) :
    Renewed directory tree left files := by
  obtain ⟨cleared, hw, hc⟩ := writePackage_eq_ok h
  have hwritten := written_files ha.plain ha.nodup hw
  have hsame : SameOutside directory tree cleared := by
    rcases hc with ⟨-, rfl⟩ | ⟨-, rfl⟩
    · exact sameOutside_without directory tree
    · exact .refl directory cleared
  have hin : ∀ rest, FilePath.isWithin (ofText directory ++ rest) (ofText directory) = true :=
    fun rest ↦ isWithin_iff.mpr ⟨rest, rfl⟩
  obtain ⟨some, hsome⟩ := List.exists_mem_of_ne_nil files ha.ne_nil
  refine ⟨fun q hq ↦ ?_, fun q hq ↦ ?_, fun q hq ↦ ?_, fun file hf ↦ ?_,
    fun wf ↦ hwritten.wellFormed (hsame.wellFormed wf), hwritten.fits⟩
  · have hn : ∀ file ∈ files, q ≠ ofText directory ++ file.path := by
      rintro file - rfl
      simp [hin] at hq
    rw [hwritten.get?_of_forall_ne hn, hsame.get?_eq q hq]
  · rw [hwritten.isDirectory_iff, hsame.isDirectory_iff q hq]
    apply or_congr_right
    constructor
    · rintro ⟨file, hf, hq'⟩
      rcases (mem_way_parentPath (ha.plain file hf)).mp hq' with h | ⟨first, -, -, rfl⟩
      · exact h
      · simp [hin] at hq
    · exact fun h ↦ ⟨some, hsome, (mem_way_parentPath (ha.plain some hsome)).mpr (.inl h)⟩
  · exact (hwritten.isDirectory_iff q).mpr
      (.inr ⟨some, hsome, (mem_way_parentPath (ha.plain some hsome)).mpr (.inl hq)⟩)
  · exact (hwritten.get?_iff _ _).mpr (.inl ⟨file, hf, rfl, rfl⟩)

/-! ## Nothing stale -/

/-- A directory holds given files and nothing else but the directories that lead to them, and those
that the path of the directory itself leads through. -/
structure HoldsExactly (directory : String) (tree : FileTree) (files : List SourceFile) : Prop where
  /-- The files in the directory are the given ones. -/
  file_iff : ∀ rest contents, tree.get? (ofText directory ++ rest) = some contents ↔
    ∃ file ∈ files, file.path = rest ∧ file.contents = contents
  /-- The directories in it are those that are needed. -/
  directory_iff : ∀ rest, tree.isDirectory (ofText directory ++ rest) = true ↔
    ofText directory ++ rest ∈ way directory ∨ ∃ file ∈ files, rest <+: file.path.dropLast

/-- No piece of a path is the root. -/
theorem ne_root_of_mem_route {text piece : String} (h : piece ∈ route text) : piece ≠ "/" := by
  rintro rfl
  exact Text.separator_not_mem (List.mem_filter.mp h).1 (by simp)

/-- Names in the path of a package are not too long, if those in the path of a file are not. -/
private theorem Fits.short_directory (hp : file.IsPlain) (h : Fits directory file) :
    ∀ piece ∈ route directory, piece = ".." ∨ piece.utf8ByteSize ≤ nameLimit := by
  intro piece hm
  apply h.short piece
  rw [route_filePath hp]
  exact List.mem_append_left _ hm

/-- The path of a package leads to a directory where all that it leads through are directories, and
it can if the paths of the files can. -/
private theorem resolve_directory (he : EndsPlain directory) (wf : tree.WellFormed)
    (hp : file.IsPlain) (fits : Fits directory file)
    (hd : ∀ q ∈ way directory, tree.isDirectory q = true) :
    tree.resolve directory = .ok (ofText directory) := by
  have hall : ∀ q ∈ start directory :: way directory, tree.isDirectory q = true :=
    List.forall_mem_cons.mpr ⟨FileTree.isDirectory_start tree directory, hd⟩
  have hc : check directory = .ok () :=
    check_of_joinPaths hp.ne_nil hp.names fits.file_path he.ne_empty
  have ho : tree.Open (start directory) (route directory) :=
    FileTree.open_of_forall (fun q hq ↦ wf.not_isFile (hall q hq)) hall (fits.short_directory hp)
  exact (FileTree.resolve_eq_ok_iff he).mpr ⟨hc, ho, rfl⟩

/-- Where the path of a package leaves only directories that are there, files are written into a
tree that holds nothing in the directory of the package. -/
private theorem exists_cleared (he : EndsPlain directory) (ha : AreFiles files)
    (wf : tree.WellFormed) (anchored : tree.Anchored (start directory) (route directory))
    (h : writePackage directory tree files = (left, .ok ())) :
    ∃ cleared, writeFiles directory cleared files = (left, .ok ()) ∧
      ∀ rest, cleared.get? (ofText directory ++ rest) = none ∧
        cleared.isDirectory (ofText directory ++ rest) = false := by
  have hrenewed := renewed ha h
  obtain ⟨some, hsome⟩ := List.exists_mem_of_ne_nil files ha.ne_nil
  obtain ⟨cleared, hw, ⟨-, rfl⟩ | ⟨hh, rfl⟩⟩ := writePackage_eq_ok h
  · refine ⟨_, hw, fun rest ↦ ?_⟩
    have hin : FilePath.isWithin (ofText directory ++ rest) (ofText directory) = true :=
      isWithin_iff.mpr ⟨rest, rfl⟩
    constructor
    · simp [FileTree.get?_without, hin]
    · apply Bool.eq_false_iff.mpr
      intro hd
      rcases (FileTree.isDirectory_without _ _ _).mp hd with hg | ⟨-, ho⟩
      · have hg' := isGiven_of_append hg
        simp [he.not_isGiven] at hg'
      · simp [hin] at ho
  · -- The path leads to nothing, so there is no directory: otherwise all that it leads through
    -- would be directories, and it would lead there.
    refine ⟨_, hw, fun rest ↦ wf.nothing_below ?_ ?_ rest⟩
    · apply Bool.eq_false_iff.mpr
      intro hd
      have hway : ∀ q ∈ way directory, cleared.isDirectory q = true := by
        intro q hq
        rcases anchored.isDirectory wf (fun _ ↦ ne_root_of_mem_route) q (.tail _ hq) with hq | hq
        · exact hq
        · obtain ⟨rest, hr⟩ := hq
          rw [ofText, ← hr] at hd
          exact wf.isDirectory_of_append hd
      have hr := resolve_directory he wf (ha.plain some hsome) (hrenewed.fits some hsome) hway
      simp [FileTree.holds, hr, FileTree.isThere, hd] at hh
    · -- A file there would still be there, in the place of a directory.
      by_contra hf
      have hn : ∀ file ∈ files, ofText directory ≠ ofText directory ++ file.path := by
        intro file hm heq
        exact (ha.plain file hm).ne_nil (List.self_eq_append_right.mp heq)
      have hk := (written_files ha.plain ha.nodup hw).get?_of_forall_ne hn
      rw [← hk] at hf
      exact hf ((hrenewed.wellFormed wf).not_isFile (hrenewed.directory_on_way _ he.mem_way))

/-- A package whose path leaves only directories that are there is all that its directory holds
afterwards. -/
theorem holdsExactly (he : EndsPlain directory) (ha : AreFiles files) (wf : tree.WellFormed)
    (anchored : tree.Anchored (start directory) (route directory))
    (h : writePackage directory tree files = (left, .ok ())) :
    HoldsExactly directory left files := by
  obtain ⟨cleared, hw, hempty⟩ := exists_cleared he ha wf anchored h
  have hwritten := written_files ha.plain ha.nodup hw
  obtain ⟨some, hsome⟩ := List.exists_mem_of_ne_nil files ha.ne_nil
  refine ⟨fun rest contents ↦ ?_, fun rest ↦ ?_⟩
  · rw [hwritten.get?_iff, (hempty rest).1]
    simp only [List.append_cancel_left_eq, reduceCtorEq, and_false, or_false]
    exact exists_congr fun file ↦ and_congr_right fun _ ↦ and_congr_left fun _ ↦ eq_comm
  · rw [hwritten.isDirectory_iff, (hempty rest).2]
    simp only [Bool.false_eq_true, false_or]
    constructor
    · rintro ⟨file, hf, hq⟩
      rcases (mem_way_parentPath (ha.plain file hf)).mp hq with hq | ⟨first, -, hp, hq⟩
      · exact .inl hq
      · rw [List.append_cancel_left_eq] at hq
        exact .inr ⟨file, hf, hq ▸ hp⟩
    · rintro (hq | ⟨file, hf, hp⟩)
      · exact ⟨some, hsome, (mem_way_parentPath (ha.plain some hsome)).mpr (.inl hq)⟩
      · refine ⟨file, hf, (mem_way_parentPath (ha.plain file hf)).mpr ?_⟩
        by_cases hr : rest = []
        · exact .inl (by simpa [hr] using he.mem_way)
        · exact .inr ⟨rest, hr, hp, rfl⟩

/-! ## Writing once more -/

/-- What it takes for a file to be written: no file is in the way, and no directory lies in its
place. -/
structure Free (directory : String) (tree : FileTree) (file : SourceFile) : Prop where
  /-- No file is in the way. -/
  no_file : ∀ q ∈ start directory :: way (parentPath directory file), tree.get? q = none
  /-- No directory lies in the place of the file. -/
  no_directory : tree.isDirectory (ofText directory ++ file.path) = false

/-- A file is written if it is free and its path can lead to a file. -/
private theorem exists_write (hp : file.IsPlain) (fits : Fits directory file)
    (free : Free directory tree file)
    (apart : ofText directory ++ file.path ∉ way (parentPath directory file)) :
    ∃ mid next, tree.makeDirectories (parentPath directory file) = (mid, .ok ()) ∧
      mid.write (filePath directory file) file.contents = .ok next := by
  obtain ⟨name, hr, hq⟩ := exists_last directory hp
  obtain ⟨hs, -⟩ := route_parentPath directory hp
  have hshort := fits.short
  rw [hr] at hshort
  have hshort' : ∀ piece ∈ route (parentPath directory file),
      piece = ".." ∨ piece.utf8ByteSize ≤ nameLimit :=
    fun piece hm ↦ hshort piece (List.mem_append_left _ hm)
  have hnf : ∀ q ∈ start (parentPath directory file) :: way (parentPath directory file),
      tree.get? q = none := by
    rw [hs]
    exact free.no_file
  obtain ⟨mid, hm⟩ : ∃ mid, tree.makeDirectories (parentPath directory file) = (mid, .ok ()) := by
    rcases fits.parent_path with he | hc
    · exact ⟨tree, by rw [he]; rfl⟩
    · exact FileTree.exists_makeDirectories hc hnf hshort'
  have hmade := FileTree.makeDirectories_eq_ok hm
  -- Now all that leads to the file are directories.
  have ho : mid.Open (start (filePath directory file)) (route (filePath directory file)) := by
    rw [hr, start_filePath hp, ← hs]
    exact FileTree.open_concat_of_made hmade (FileTree.isDirectory_start tree _) hnf hshort
  have hplace := (FileTree.resolve_eq_ok_iff (endsPlain_filePath hp)).mpr ⟨fits.file_path, ho, rfl⟩
  have hn : mid.isDirectory (ofText (filePath directory file)) = false := by
    rw [ofText_filePath hp]
    apply Bool.eq_false_iff.mpr
    intro h
    rcases (hmade.isDirectory_iff _).mp h with h | h
    · simp [free.no_directory] at h
    · exact apart h
  exact ⟨mid, _, hm, by rw [FileTree.write, hplace]; simp [bind, Except.bind, hn]; rfl⟩

/-- A file that is written is not in the way of another one, and neither are the directories made
for it. -/
private theorem Free.of_written {next : FileTree} {other : SourceFile}
    (hg : isGiven (ofText directory) = false) (hw : Written directory tree next [file])
    (free : Free directory tree other)
    (hf : ofText directory ++ file.path ∉ way (parentPath directory other))
    (ho : ofText directory ++ other.path ∉ way (parentPath directory file)) :
    Free directory next other := by
  have hn : ∀ q ∈ start directory :: way (parentPath directory other),
      q ≠ ofText directory ++ file.path := by
    rintro q hq rfl
    rcases List.mem_cons.mp hq with hs | hq
    · -- A path starts at the root or the working directory, and the package lies deeper.
      have hgs : isGiven (start directory) = true := by
        unfold start
        split <;> rfl
      rw [← hs] at hgs
      simp [isGiven_of_append hgs] at hg
    · exact hf hq
  refine ⟨fun q hq ↦ ?_, Bool.eq_false_iff.mpr fun hd ↦ ?_⟩
  · rw [hw.get?_of_forall_ne (by simpa using hn q hq), free.no_file q hq]
  · rcases (hw.isDirectory_iff _).mp hd with hd | ⟨f, hm, hd⟩
    · simp [free.no_directory] at hd
    · obtain rfl := List.mem_singleton.mp hm
      exact ho hd

/-- Files are written that are free, whose paths can lead to files, and none of which lies where
another one needs a directory. -/
private theorem exists_writeFiles (hg : isGiven (ofText directory) = false)
    (hp : ∀ file ∈ files, file.IsPlain) (fits : ∀ file ∈ files, Fits directory file)
    (free : ∀ file ∈ files, Free directory tree file)
    (apart : ∀ file ∈ files, ∀ other ∈ files,
      ofText directory ++ file.path ∉ way (parentPath directory other)) :
    ∃ left, writeFiles directory tree files = (left, .ok ()) := by
  induction files generalizing tree with
  | nil => exact ⟨tree, rfl⟩
  | cons file files ih =>
    obtain ⟨mid, next, hm, hw⟩ := exists_write (hp file (.head _)) (fits file (.head _))
      (free file (.head _)) (apart file (.head _) file (.head _))
    have hwritten := written_file (hp file (.head _)) hm hw
    have hfree : ∀ other ∈ files, Free directory next other := fun other ho ↦
      (free other (.tail _ ho)).of_written hg hwritten (apart file (.head _) other (.tail _ ho))
        (apart other (.tail _ ho) file (.head _))
    obtain ⟨left, hl⟩ := ih (fun f hf ↦ hp f (.tail _ hf)) (fun f hf ↦ fits f (.tail _ hf)) hfree
      fun f hf o ho ↦ apart f (.tail _ hf) o (.tail _ ho)
    exact ⟨left, by simp only [writeFiles, hm, hw, hl]⟩

/-- A package can be written where all that its path leads through are directories, if its paths can
lead to files and none of these lies where another one needs a directory. -/
theorem exists_writePackage (he : EndsPlain directory) (ha : AreFiles files)
    (fits : ∀ file ∈ files, Fits directory file)
    (apart : ∀ file ∈ files, ∀ other ∈ files,
      ofText directory ++ file.path ∉ way (parentPath directory other))
    (wf : tree.WellFormed) (hd : ∀ q ∈ way directory, tree.isDirectory q = true) :
    ∃ left, writePackage directory tree files = (left, .ok ()) := by
  obtain ⟨some, hsome⟩ := List.exists_mem_of_ne_nil files ha.ne_nil
  have hr := resolve_directory he wf (ha.plain some hsome) (fits some hsome) hd
  have hdir := hd _ he.mem_way
  have hnf : tree.isFile (ofText directory) = false :=
    (FileTree.isFile_eq_false_iff tree _).mpr (wf.not_isFile hdir)
  have hholds : tree.holds directory = true := by simp [FileTree.holds, hr, FileTree.isThere, hdir]
  have hremove : tree.removeDirectory directory = .ok (tree.without (ofText directory)) := by
    simp [FileTree.removeDirectory, hr, bind, Except.bind, hnf, hdir]
  have hin : ∀ rest, FilePath.isWithin (ofText directory ++ rest) (ofText directory) = true :=
    fun rest ↦ isWithin_iff.mpr ⟨rest, rfl⟩
  -- The directory is empty now, and outside of it no file is where a directory was.
  have hfree : ∀ file ∈ files, Free directory (tree.without (ofText directory)) file := by
    intro file hf
    refine ⟨fun q hq ↦ ?_, Bool.eq_false_iff.mpr fun h ↦ ?_⟩
    · rw [FileTree.get?_without]
      split
      · rfl
      · next ho =>
        apply wf.not_isFile
        rcases List.mem_cons.mp hq with rfl | hq
        · exact FileTree.isDirectory_start tree directory
        · rcases (mem_way_parentPath (ha.plain file hf)).mp hq with hq | ⟨first, -, -, rfl⟩
          · exact hd q hq
          · simp [hin] at ho
    · rcases (FileTree.isDirectory_without _ _ _).mp h with hg | ⟨-, ho⟩
      · have hg' := isGiven_of_append hg
        simp [he.not_isGiven] at hg'
      · simp [hin] at ho
  obtain ⟨left, hl⟩ := exists_writeFiles he.not_isGiven ha.plain fits hfree apart
  exact ⟨left, by rw [writePackage, if_pos hholds, hremove]; exact hl⟩

end Generation

end RpcForge
