import RpcForge.Proofs.Package.Paths
import RpcForge.Proofs.Run.Turns

/-!
# Effects of a run

What a run does to every place of a file tree. It changes files only in the directories of the
packages that it writes, and each of these lies in the directory of all packages under the name of
its language and of the package, which is an identifier whatever the title of the document is.
-/

namespace RpcForge

open FilePath

namespace Generation

/-! ## Places of packages -/

variable {settings : Settings} {plan : Plan}

/-- The place of the package for a language: in the place of all packages, under the names of the
language and of the package. -/
def packagePlace (settings : Settings) (plan : Plan) (l : Language) : FilePath :=
  ofText settings.output.directory ++ [l.name, plan.packageName]

private theorem plain_directory (l : Language) (plan : Plan) :
    Package.directory l plan ≠ [] ∧ ∀ name ∈ Package.directory l plan, FilePath.IsPlain name := by
  simp [Package.directory, l.isPlain_name, plan.isPlain_packageName]

private theorem endsPlain_packageDirectory (l : Language) :
    EndsPlain (packageDirectory settings plan l) :=
  endsPlain_joinPaths (plain_directory l plan).1 (plain_directory l plan).2 _

/-- The path of a package leads to its place. -/
private theorem ofText_packageDirectory (l : Language) :
    ofText (packageDirectory settings plan l) = packagePlace settings plan l :=
  ofText_joinPaths (plain_directory l plan).1 (plain_directory l plan).2 _

/-- The path of a package leads through the places that the path of all packages leads through, the
place of the language, and that of the package. -/
private theorem mem_way_packageDirectory {l : Language} {q : FilePath} :
    q ∈ way (packageDirectory settings plan l) ↔ q ∈ way settings.output.directory ∨
      q = ofText settings.output.directory ++ [l.name] ∨ q = packagePlace settings plan l := by
  rw [packageDirectory, mem_way_joinPaths (plain_directory l plan).1 (plain_directory l plan).2]
  apply or_congr_right
  constructor
  · rintro ⟨first, hn, hp, rfl⟩
    rw [Package.directory] at hp
    match first, hn, hp with
    | [x], _, hp =>
      obtain ⟨rfl, -⟩ := List.cons_prefix_cons.mp hp
      exact .inl rfl
    | [x, y], _, hp =>
      obtain ⟨rfl, hp'⟩ := List.cons_prefix_cons.mp hp
      obtain ⟨rfl, -⟩ := List.cons_prefix_cons.mp hp'
      exact .inr rfl
    | x :: y :: z :: rest, _, hp => simp [List.cons_prefix_cons] at hp
  · rintro (rfl | rfl)
    · exact ⟨[l.name], by simp, List.prefix_append [l.name] [plan.packageName], rfl⟩
    · exact ⟨Package.directory l plan, by simp [Package.directory], List.prefix_rfl, rfl⟩

/-- The packages of different languages lie apart. -/
private theorem eq_of_isWithin {l l' : Language} (rest : FilePath)
    (h : (ofText settings.output.directory ++ l.name :: rest).isWithin
      (packagePlace settings plan l') = true) : l = l' := by
  obtain ⟨more, hm⟩ := isWithin_iff.mp h
  rw [packagePlace, List.append_assoc, List.append_cancel_left_eq] at hm
  exact Language.name_injective (List.cons.inj hm).1

private theorem isWithin_packagePlace (l : Language) (rest : FilePath) :
    FilePath.isWithin (packagePlace settings plan l ++ rest) (packagePlace settings plan l) =
      true :=
  isWithin_iff.mpr ⟨rest, rfl⟩

/-- What lies in the package of another language lies outside of the package of this one. -/
private theorem isWithin_eq_false {l l' : Language} (hl : l ≠ l') {q : FilePath}
    (hq : q.isWithin (packagePlace settings plan l) = true) :
    q.isWithin (packagePlace settings plan l') = false := by
  apply Bool.eq_false_iff.mpr
  intro h
  obtain ⟨rest, rfl⟩ := isWithin_iff.mp hq
  apply hl
  rw [packagePlace, List.append_assoc] at h
  exact eq_of_isWithin _ h

/-- In the directory of a package another package needs only what the path of all packages leads
through. -/
private theorem mem_way_of_isWithin {l l' : Language} (hl : l ≠ l') {q : FilePath}
    (hq : q.isWithin (packagePlace settings plan l) = true)
    (hw : q ∈ way (packageDirectory settings plan l')) : q ∈ way settings.output.directory := by
  rcases mem_way_packageDirectory.mp hw with hw | rfl | rfl
  · exact hw
  · exact absurd (eq_of_isWithin [] hq) (Ne.symm hl)
  · exact absurd (eq_of_isWithin [plan.packageName] hq) (Ne.symm hl)

/-- What the path of a package leads through in the directory of another one, the path of that one
leads through as well. -/
private theorem mem_way_of_mem_way {l l' : Language} {q : FilePath}
    (hq : q ∈ way (packageDirectory settings plan l))
    (hw : q.isWithin (packagePlace settings plan l') = true) :
    q ∈ way (packageDirectory settings plan l') := by
  by_cases hl : l' = l
  · rwa [hl]
  · exact mem_way_packageDirectory.mpr (.inl (mem_way_of_isWithin hl hw hq))

/-- The path of a package leaves only directories that are there if that of all packages does. -/
private theorem anchored_packageDirectory {tree : FileTree} (l : Language) :
    tree.Anchored (start (packageDirectory settings plan l))
        (route (packageDirectory settings plan l)) ↔
      tree.Anchored (start settings.output.directory) (route settings.output.directory) := by
  rw [packageDirectory, start_joinPaths (plain_directory l plan).1 (plain_directory l plan).2,
    route_joinPaths (plain_directory l plan).1 (plain_directory l plan).2, FileTree.anchored_append]
  exact and_iff_left (FileTree.anchored_plain (plain_directory l plan).2 _)

/-! ## Turns -/

/-- A language whose package can be made is written in its turn, if no operation fails. -/
private theorem writePackage_eq {tree : FileTree} {l : Language} {files : List SourceFile}
    (hf : Package.files l plan = .ok files) (hw : isWritten settings plan tree l = true) :
    writePackage (packageDirectory settings plan l) tree files =
      (leave settings plan tree l, .ok ()) := by
  simp only [isWritten, leave, hf] at hw ⊢
  cases h : writePackage (packageDirectory settings plan l) tree files with
  | mk left result =>
    cases result with
    | error e =>
      rw [h] at hw
      cases hw
    | ok _ => rfl

private theorem renewed_leave {tree : FileTree} {l : Language} {files : List SourceFile}
    (hf : Package.files l plan = .ok files) (hw : isWritten settings plan tree l = true) :
    Renewed (packageDirectory settings plan l) tree (leave settings plan tree l) files :=
  renewed (Package.areFiles hf) (writePackage_eq hf hw)

/-- A language whose package cannot be made leaves everything as it is. -/
private theorem leave_of_error {tree : FileTree} {l : Language} {e : GenerationError}
    (hf : Package.files l plan = .error e) : leave settings plan tree l = tree := by
  rw [leave, hf]

section Turn

variable {tree : FileTree} {l : Language} (hw : isWritten settings plan tree l = true)
include hw

private theorem wellFormed_leave (wf : tree.WellFormed) :
    (leave settings plan tree l).WellFormed := by
  cases hf : Package.files l plan with
  | error e => rwa [leave_of_error hf]
  | ok files => exact (renewed_leave hf hw).wellFormed wf

/-- A directory that the path of any package leads through stays one. -/
private theorem isDirectory_leave {other : Language} {q : FilePath}
    (hq : q ∈ way (packageDirectory settings plan other)) (hd : tree.isDirectory q = true) :
    (leave settings plan tree l).isDirectory q = true := by
  cases hf : Package.files l plan with
  | error e => rwa [leave_of_error hf]
  | ok files =>
    have hr := renewed_leave hf hw
    by_cases hin : q.isWithin (packagePlace settings plan l) = true
    · exact hr.directory_on_way q (mem_way_of_mem_way hq hin)
    · rw [← ofText_packageDirectory, Bool.not_eq_true] at hin
      exact (hr.directory_outside q hin).mpr (.inl hd)

private theorem anchored_leave
    (h : tree.Anchored (start settings.output.directory) (route settings.output.directory)) :
    (leave settings plan tree l).Anchored (start settings.output.directory)
      (route settings.output.directory) := by
  cases hf : Package.files l plan with
  | error e => rwa [leave_of_error hf]
  | ok files =>
    apply FileTree.anchored_of_forall
    rw [List.forall_mem_cons]
    exact ⟨FileTree.isDirectory_start _ _, fun q hq ↦
      (renewed_leave hf hw).directory_on_way q (mem_way_packageDirectory.mpr (.inl hq))⟩

end Turn

/-! ## Turns after one another -/

section Turns

variable {tree : FileTree} {ls : List Language}

private theorem wellFormed_foldl (hu : Unhindered settings plan tree ls) (wf : tree.WellFormed) :
    (ls.foldl (leave settings plan) tree).WellFormed := by
  induction ls generalizing tree with
  | nil => exact wf
  | cons l ls ih => exact ih hu.2 (wellFormed_leave hu.1 wf)

private theorem anchored_foldl (hu : Unhindered settings plan tree ls)
    (h : tree.Anchored (start settings.output.directory) (route settings.output.directory)) :
    (ls.foldl (leave settings plan) tree).Anchored (start settings.output.directory)
      (route settings.output.directory) := by
  induction ls generalizing tree with
  | nil => exact h
  | cons l ls ih => exact ih hu.2 (anchored_leave hu.1 h)

private theorem isDirectory_foldl (hu : Unhindered settings plan tree ls) {other : Language}
    {q : FilePath} (hq : q ∈ way (packageDirectory settings plan other))
    (hd : tree.isDirectory q = true) :
    (ls.foldl (leave settings plan) tree).isDirectory q = true := by
  induction ls generalizing tree with
  | nil => exact hd
  | cons l ls ih => exact ih hu.2 (isDirectory_leave hu.1 hq hd)

/-- The paths of packages that are written lead through directories afterwards. -/
private theorem directory_on_way_foldl (hu : Unhindered settings plan tree ls) {l : Language}
    (hl : l ∈ ls) {files : List SourceFile} (hf : Package.files l plan = .ok files) {q : FilePath}
    (hq : q ∈ way (packageDirectory settings plan l)) :
    (ls.foldl (leave settings plan) tree).isDirectory q = true := by
  induction ls generalizing tree with
  | nil => cases hl
  | cons next ls ih =>
    rcases List.mem_cons.mp hl with rfl | hl
    · exact isDirectory_foldl hu.2 hq ((renewed_leave hf hu.1).directory_on_way q hq)
    · exact ih hu.2 hl

/-- The paths of packages that are written can lead somewhere. -/
private theorem fits_foldl (hu : Unhindered settings plan tree ls) {l : Language} (hl : l ∈ ls)
    {files : List SourceFile} (hf : Package.files l plan = .ok files) :
    ∀ file ∈ files, Fits (packageDirectory settings plan l) file := by
  induction ls generalizing tree with
  | nil => cases hl
  | cons next ls ih =>
    rcases List.mem_cons.mp hl with rfl | hl
    · exact (renewed_leave hf hu.1).fits
    · exact ih hu.2 hl

/-- Whether a place lies outside of the packages that languages write. -/
def Outside (settings : Settings) (plan : Plan) (ls : List Language) (q : FilePath) : Prop :=
  ∀ l ∈ ls, ∀ files, Package.files l plan = .ok files →
    q.isWithin (packagePlace settings plan l) = false

/-- Outside of the packages that are written all files are the same. -/
private theorem file_outside_foldl (hu : Unhindered settings plan tree ls) {q : FilePath}
    (ho : Outside settings plan ls q) :
    (ls.foldl (leave settings plan) tree).get? q = tree.get? q := by
  induction ls generalizing tree with
  | nil => rfl
  | cons l ls ih =>
    rw [List.foldl_cons, ih hu.2 fun l' hl' ↦ ho l' (.tail _ hl')]
    cases hf : Package.files l plan with
    | error e => rw [leave_of_error hf]
    | ok files =>
      apply (renewed_leave hf hu.1).file_outside
      rw [ofText_packageDirectory]
      exact ho l (.head _) files hf

/-- Whether a place is one that the path of a package leads through that languages write. -/
def OnWay (settings : Settings) (plan : Plan) (ls : List Language) (q : FilePath) : Prop :=
  ∃ l ∈ ls, (∃ files, Package.files l plan = .ok files) ∧
    q ∈ way (packageDirectory settings plan l)

/-- Outside of the packages that are written no directory is lost, and only those are new that lead
to the packages. -/
private theorem directory_outside_foldl (hu : Unhindered settings plan tree ls) {q : FilePath}
    (ho : Outside settings plan ls q) :
    (ls.foldl (leave settings plan) tree).isDirectory q = true ↔
      tree.isDirectory q = true ∨ OnWay settings plan ls q := by
  induction ls generalizing tree with
  | nil => simp [OnWay]
  | cons l ls ih =>
    have hrest : OnWay settings plan (l :: ls) q ↔
        ((∃ files, Package.files l plan = .ok files) ∧
          q ∈ way (packageDirectory settings plan l)) ∨ OnWay settings plan ls q := by
      simp [OnWay]
    rw [List.foldl_cons, ih hu.2 fun l' hl' ↦ ho l' (.tail _ hl'), hrest, ← or_assoc]
    apply or_congr_left
    cases hf : Package.files l plan with
    | error e => simp [leave_of_error hf]
    | ok files =>
      have ho' := ho l (.head _) files hf
      rw [← ofText_packageDirectory] at ho'
      rw [(renewed_leave hf hu.1).directory_outside q ho']
      simp

/-- What the turns of the other languages do in the directory of a package: nothing to files, and
they make only directories that the path of all packages leads through. -/
private theorem outside_of_not_mem {l : Language} (hl : l ∉ ls) {q : FilePath}
    (hq : q.isWithin (packagePlace settings plan l) = true) : Outside settings plan ls q := by
  intro l' hl' _ _
  apply isWithin_eq_false _ hq
  rintro rfl
  exact hl hl'

private theorem mem_way_of_onWay {l : Language} (hl : l ∉ ls) {q : FilePath}
    (hq : q.isWithin (packagePlace settings plan l) = true) (h : OnWay settings plan ls q) :
    q ∈ way settings.output.directory := by
  obtain ⟨l', hl', -, hw⟩ := h
  apply mem_way_of_isWithin _ hq hw
  rintro rfl
  exact hl hl'

/-- The files of the packages that are written are there. -/
private theorem file_written_foldl (hu : Unhindered settings plan tree ls) {l : Language}
    (hl : l ∈ ls) {files : List SourceFile} (hf : Package.files l plan = .ok files)
    {file : SourceFile} (hm : file ∈ files) :
    (ls.foldl (leave settings plan) tree).get? (packagePlace settings plan l ++ file.path) =
      some file.contents := by
  induction ls generalizing tree with
  | nil => cases hl
  | cons next ls ih =>
    by_cases hmem : l ∈ ls
    · exact ih hu.2 hmem
    · obtain rfl : l = next := (List.mem_cons.mp hl).resolve_right hmem
      rw [List.foldl_cons, file_outside_foldl hu.2
        (outside_of_not_mem hmem (isWithin_packagePlace l file.path)), ← ofText_packageDirectory]
      exact (renewed_leave hf hu.1).file_written file hm

/-- The directories of packages that are written hold nothing else, if the path of all packages
leaves only directories that are there. -/
private theorem holdsExactly_foldl (hu : Unhindered settings plan tree ls) (wf : tree.WellFormed)
    (anchored : tree.Anchored (start settings.output.directory) (route settings.output.directory))
    {l : Language} (hl : l ∈ ls) {files : List SourceFile}
    (hf : Package.files l plan = .ok files) :
    HoldsExactly (packageDirectory settings plan l) (ls.foldl (leave settings plan) tree)
      files := by
  induction ls generalizing tree with
  | nil => cases hl
  | cons next ls ih =>
    have wf' := wellFormed_leave hu.1 wf
    have anchored' := anchored_leave hu.1 anchored
    by_cases hmem : l ∈ ls
    · exact ih hu.2 wf' anchored' hmem
    · obtain rfl : l = next := (List.mem_cons.mp hl).resolve_right hmem
      have hexact := holdsExactly (endsPlain_packageDirectory l) (Package.areFiles hf) wf
        ((anchored_packageDirectory l).mpr anchored) (writePackage_eq hf hu.1)
      have hin : ∀ rest, FilePath.isWithin (ofText (packageDirectory settings plan l) ++ rest)
          (packagePlace settings plan l) = true := by
        intro rest
        rw [ofText_packageDirectory]
        exact isWithin_packagePlace l rest
      refine ⟨fun rest contents ↦ ?_, fun rest ↦ ?_⟩
      · rw [List.foldl_cons, file_outside_foldl hu.2 (outside_of_not_mem hmem (hin rest))]
        exact hexact.file_iff rest contents
      · rw [List.foldl_cons, directory_outside_foldl hu.2 (outside_of_not_mem hmem (hin rest)),
          hexact.directory_iff]
        -- What the others need here is needed for this package as well.
        constructor
        · rintro (h | h)
          · exact h
          · exact .inl (mem_way_packageDirectory.mpr (.inl (mem_way_of_onWay hmem (hin rest) h)))
        · exact .inl

/-- The directory of a package that cannot be made is as before, if the path of all packages leaves
only directories that are there. -/
private theorem unchanged_foldl (hu : Unhindered settings plan tree ls) (wf : tree.WellFormed)
    (anchored : tree.Anchored (start settings.output.directory) (route settings.output.directory))
    {l : Language} {e : GenerationError} (hf : Package.files l plan = .error e) {q : FilePath}
    (hq : q.isWithin (packagePlace settings plan l) = true) :
    (ls.foldl (leave settings plan) tree).get? q = tree.get? q ∧
      ((ls.foldl (leave settings plan) tree).isDirectory q = true ↔ tree.isDirectory q = true) := by
  have hne : ∀ l', (∃ files, Package.files l' plan = .ok files) → l ≠ l' := by
    rintro l' ⟨files, hf'⟩ rfl
    rw [hf] at hf'
    cases hf'
  have ho : Outside settings plan ls q := fun l' _ files hf' ↦
    isWithin_eq_false (hne l' ⟨files, hf'⟩) hq
  refine ⟨file_outside_foldl hu ho, ?_⟩
  rw [directory_outside_foldl hu ho]
  refine ⟨fun h ↦ h.elim id ?_, .inl⟩
  rintro ⟨l', -, hf', hw⟩
  -- A place on the way to all packages is there, because it is not on the way to their place.
  have hway := mem_way_of_isWithin (hne l' hf') hq hw
  rcases anchored.isDirectory wf (fun _ ↦ ne_root_of_mem_route) q (.tail _ hway) with h | h
  · exact h
  · obtain ⟨rest, rfl⟩ := isWithin_iff.mp hq
    have hlen := h.length_le
    rw [packagePlace] at hlen
    simp only [ofText, List.length_append, List.length_cons] at hlen
    omega

end Turns

/-! ## Running once more -/

/-- Everything that the packages of languages need for being written once more. -/
structure Settled (settings : Settings) (plan : Plan) (tree : FileTree) (ls : List Language) :
    Prop where
  /-- The tree is as it can be. -/
  wellFormed : tree.WellFormed
  /-- The paths of the packages lead through directories. -/
  directory_on_way : ∀ q, OnWay settings plan ls q → tree.isDirectory q = true
  /-- Their paths can lead somewhere. -/
  fits : ∀ l ∈ ls, ∀ files, Package.files l plan = .ok files → ∀ file ∈ files,
    Fits (packageDirectory settings plan l) file
  /-- No file lies where another one needs a directory. -/
  apart : ∀ l ∈ ls, ∀ files, Package.files l plan = .ok files → ∀ file ∈ files, ∀ other ∈ files,
    packagePlace settings plan l ++ file.path ∉
      way (parentPath (packageDirectory settings plan l) other)

/-- What a run leaves behind is settled. -/
private theorem settled_foldl {tree : FileTree} {ls : List Language}
    (hu : Unhindered settings plan tree ls) (wf : tree.WellFormed)
    (anchored : tree.Anchored (start settings.output.directory) (route settings.output.directory)) :
    Settled settings plan (ls.foldl (leave settings plan) tree) ls where
  wellFormed := wellFormed_foldl hu wf
  directory_on_way := fun _ ⟨_, hl, ⟨_, hf⟩, hq⟩ ↦ directory_on_way_foldl hu hl hf hq
  fits := fun _ hl _ hf ↦ fits_foldl hu hl hf
  apart := by
    intro l hl files hf file hm other ho hq
    have hexact := holdsExactly_foldl hu wf anchored hl hf
    have hdir : (ls.foldl (leave settings plan) tree).isDirectory
        (packagePlace settings plan l ++ file.path) = true := by
      rcases (mem_way_parentPath ((Package.areFiles hf).plain other ho)).mp hq with
        hq | ⟨first, -, hp, hq⟩
      · exact directory_on_way_foldl hu hl hf hq
      · rw [← ofText_packageDirectory] at hq ⊢
        exact (hexact.directory_iff file.path).mpr
          (.inr ⟨other, ho, by rwa [List.append_cancel_left hq]⟩)
    have hfile := (wellFormed_foldl hu wf).not_isFile hdir
    simp [file_written_foldl hu hl hf hm] at hfile

/-- In a settled tree a language is written, and the tree stays settled. -/
theorem Settled.leave {tree : FileTree} {ls : List Language} (h : Settled settings plan tree ls)
    {l : Language} (hl : l ∈ ls) :
    isWritten settings plan tree l = true ∧
      Settled settings plan (leave settings plan tree l) ls := by
  have hw : isWritten settings plan tree l = true := by
    rw [isWritten]
    cases hf : Package.files l plan with
    | error e => rfl
    | ok files =>
      have ha := h.apart l hl files hf
      rw [← ofText_packageDirectory] at ha
      obtain ⟨left, hleft⟩ := exists_writePackage (endsPlain_packageDirectory l)
        (Package.areFiles hf) (h.fits l hl files hf) ha h.wellFormed
        fun q hq ↦ h.directory_on_way q ⟨l, hl, ⟨files, hf⟩, hq⟩
      simp only [hleft]
      rfl
  refine ⟨hw, wellFormed_leave hw h.wellFormed, fun q hq ↦ ?_, h.fits, h.apart⟩
  obtain ⟨l', hl', hf, hway⟩ := hq
  exact isDirectory_leave hw hway (h.directory_on_way q ⟨l', hl', hf, hway⟩)

/-- In a settled tree no operation fails. -/
theorem Settled.unhindered {tree : FileTree} {ls ms : List Language}
    (h : Settled settings plan tree ls) (hs : ms ⊆ ls) : Unhindered settings plan tree ms := by
  induction ms generalizing tree with
  | nil => trivial
  | cons m ms ih =>
    obtain ⟨hm, hs⟩ := List.cons_subset.mp hs
    obtain ⟨hw, h'⟩ := h.leave hm
    exact ⟨hw, ih h' hs⟩

/-- Two trees hold the same files and directories. -/
def Same (tree other : FileTree) : Prop :=
  ∀ q, other.get? q = tree.get? q ∧ (other.isDirectory q = true ↔ tree.isDirectory q = true)

/-- Languages that have had their turns leave everything the same in their next ones. -/
private theorem same_foldl {tree : FileTree} {ls : List Language}
    (hu : Unhindered settings plan tree ls) (wf : tree.WellFormed)
    (anchored : tree.Anchored (start settings.output.directory) (route settings.output.directory)) :
    Same (ls.foldl (leave settings plan) tree)
      (ls.foldl (leave settings plan) (ls.foldl (leave settings plan) tree)) := by
  have hsettled := settled_foldl hu wf anchored
  have hu' := hsettled.unhindered (List.Subset.refl ls)
  have wf' := wellFormed_foldl hu wf
  have anchored' := anchored_foldl hu anchored
  intro q
  by_cases ho : Outside settings plan ls q
  · refine ⟨file_outside_foldl hu' ho, ?_⟩
    rw [directory_outside_foldl hu' ho]
    exact ⟨fun h ↦ h.elim id (hsettled.directory_on_way q), .inl⟩
  · -- In the directory of a package both runs leave exactly its files.
    simp only [Outside, not_forall, Bool.not_eq_false] at ho
    obtain ⟨l, hl, files, hf, hin⟩ := ho
    obtain ⟨rest, rfl⟩ := isWithin_iff.mp hin
    have hexact := holdsExactly_foldl hu wf anchored hl hf
    have hexact' := holdsExactly_foldl hu' wf' anchored' hl hf
    rw [← ofText_packageDirectory]
    constructor
    · apply Option.ext
      intro contents
      rw [hexact'.file_iff, hexact.file_iff]
    · rw [hexact'.directory_iff, hexact.directory_iff]

/-! ## Runs -/

/-- What a run leaves behind. A run that fails as a whole has not come to any operation on files. -/
def leftBehind (settings : Settings) (toolbox : Toolbox) (document : Document) (tree : FileTree) :
    FileTree :=
  match generate settings toolbox document tree with
  | .error _ => tree
  | .ok (left, _) => left

/-- The files that turns leave behind do not depend on the tools. -/
private theorem takeTurns_fst (settings : Settings) (toolbox : Toolbox) (plan : Plan)
    (tree : FileTree) (ls : List Language) :
    (takeTurns settings toolbox plan tree ls).1 = ls.foldl (leave settings plan) tree := by
  induction ls generalizing tree with
  | nil => rfl
  | cons l ls ih => rw [List.foldl_cons, ← ih, ← takeTurn_fst settings toolbox]; rfl

/-- A run leaves behind what the turns of its languages do. -/
private theorem leftBehind_eq {settings : Settings} {document : Document} {plan : Plan}
    (planned : planFor settings document = .ok plan) (toolbox : Toolbox) (tree : FileTree) :
    leftBehind settings toolbox document tree =
      settings.target.languages.foldl (leave settings plan) tree := by
  simp only [leftBehind, generate, planned, ← takeTurns_fst settings toolbox]

/-- What a run does to a file tree, whatever comes of its tools, if no operation on files fails.
Without a plan it does nothing.
Otherwise it changes files only in the directories of the packages that it writes. Each of these is
named by an identifier, and lies under the name of its language in the directory of all packages.
Elsewhere no directory is lost, and only those that lead to these packages are made. All their files
are there afterwards.

If the path of all packages leaves no directory for the one around it that was not there before, the
directory of a package that cannot be made is as it was, that of every other package holds exactly
the files of the package, and another run leaves everything the same. -/
theorem generate_effects {settings : Settings} {document : Document} {tree : FileTree}
    (toolbox : Toolbox) (wf : tree.WellFormed)
    (unhindered : ∀ plan, planFor settings document = .ok plan →
      Unhindered settings plan tree settings.target.languages) :
    (∀ e, planFor settings document = .error e →
      leftBehind settings toolbox document tree = tree) ∧
    ∀ plan, planFor settings document = .ok plan →
      let left := leftBehind settings toolbox document tree
      Naming.IsIdentifier plan.packageName ∧
      (∀ q, Outside settings plan settings.target.languages q → left.get? q = tree.get? q ∧
        (left.isDirectory q = true ↔
          tree.isDirectory q = true ∨ OnWay settings plan settings.target.languages q)) ∧
      (∀ l ∈ settings.target.languages, ∀ files, Package.files l plan = .ok files →
        ∀ file ∈ files,
          left.get? (packagePlace settings plan l ++ file.path) = some file.contents) ∧
      (tree.Anchored (start settings.output.directory) (route settings.output.directory) →
        (∀ l ∈ settings.target.languages,
          (∃ e, Package.files l plan = .error e ∧
            ∀ q, q.isWithin (packagePlace settings plan l) = true → left.get? q = tree.get? q ∧
              (left.isDirectory q = true ↔ tree.isDirectory q = true)) ∨
          ∃ files, Package.files l plan = .ok files ∧
            HoldsExactly (packageDirectory settings plan l) left files) ∧
        Unhindered settings plan left settings.target.languages ∧
        Same left (leftBehind settings toolbox document left)) := by
  constructor
  · intro e he
    simp [leftBehind, generate, he]
  · intro plan planned
    have hu := unhindered plan planned
    simp only [leftBehind_eq planned]
    refine ⟨plan.isIdentifier_packageName,
      fun q ho ↦ ⟨file_outside_foldl hu ho, directory_outside_foldl hu ho⟩,
      fun l hl files hf file hm ↦ file_written_foldl hu hl hf hm, fun anchored ↦ ⟨?_, ?_, ?_⟩⟩
    · intro l hl
      cases hf : Package.files l plan with
      | error e => exact .inl ⟨e, rfl, fun q hq ↦ unchanged_foldl hu wf anchored hf hq⟩
      | ok files => exact .inr ⟨files, rfl, holdsExactly_foldl hu wf anchored hl hf⟩
    · exact (settled_foldl hu wf anchored).unhindered (List.Subset.refl _)
    · exact same_foldl hu wf anchored

/-- A tree with a file in each of the directories where `reversed` puts its packages. -/
def planted : FileTree :=
  (FileTree.plant {} "out/typescript/pair_client/old.ts" "planted").plant
    "out/python/pair_client/src/old.py" "planted"

/-- Of two methods that TypeScript cannot tell apart a run makes a package in Python alone: what lay
in its directory is gone, and what lies in the one for TypeScript stays. -/
theorem generate_effects_pair :
    ∃ plan, planFor reversed (pair "a1" "a_1") = .ok plan ∧ planted.WellFormed ∧
      Unhindered reversed plan planted [.typeScript, .python] ∧
      planted.Anchored (start "out") (route "out") ∧
      let left := leftBehind reversed .idle (pair "a1" "a_1") planted
      left.get? ["out", "typescript", "pair_client", "old.ts"] = some "planted" ∧
      left.get? ["out", "python", "pair_client", "src", "old.py"] = none ∧
      Same left (leftBehind reversed .idle (pair "a1" "a_1") left) := by
  obtain ⟨plan, planned, unhindered, refused, made, place_ts, place_py, no_path⟩ :
      ∃ plan, planFor reversed (pair "a1" "a_1") = .ok plan ∧
        Unhindered reversed plan planted [.typeScript, .python] ∧
        (Package.files .typeScript plan).isOk = false ∧
        (Package.files .python plan).isOk = true ∧
        packagePlace reversed plan .typeScript = ["out", "typescript", "pair_client"] ∧
        packagePlace reversed plan .python = ["out", "python", "pair_client"] ∧
        ["src", "old.py"] ∉ Package.paths .python plan :=
    ⟨_, rfl, by decide +kernel⟩
  have wf : planted.WellFormed := by decide +kernel
  have anchored : planted.Anchored (start "out") (route "out") := by decide +kernel
  have unhindered' : ∀ plan', planFor reversed (pair "a1" "a_1") = .ok plan' →
      Unhindered reversed plan' planted reversed.target.languages := by
    intro plan' planned'
    obtain rfl := Except.ok.inj (planned.symm.trans planned')
    exact unhindered
  obtain ⟨-, h⟩ := generate_effects .idle wf unhindered'
  obtain ⟨-, -, -, h⟩ := h plan planned
  obtain ⟨settled, -, same⟩ := h anchored
  refine ⟨plan, planned, wf, unhindered, anchored, ?_, ?_, same⟩
  · rcases settled .typeScript (by simp [reversed]) with ⟨e, -, kept⟩ | ⟨files, hf, -⟩
    · rw [(kept ["out", "typescript", "pair_client", "old.ts"] (by rw [place_ts]; decide)).1]
      decide +kernel
    · rw [hf] at refused
      cases refused
  · rcases settled .python (by simp [reversed]) with ⟨e, hf, -⟩ | ⟨files, hf, exactly⟩
    · rw [hf] at made
      cases made
    · rw [Option.eq_none_iff_forall_ne_some]
      intro contents hc
      have hplace := exactly.file_iff ["src", "old.py"] contents
      rw [ofText_packageDirectory, place_py] at hplace
      obtain ⟨file, hm, hp, -⟩ := hplace.mp hc
      rw [← Package.map_path_files hf, ← hp] at no_path
      exact no_path (List.mem_map_of_mem hm)

/-- Settings for TypeScript whose output path leaves a directory. -/
def astray : Settings where
  output := { directory := "x/../out" }
  target := { languages := [.typeScript] }

/-- A tree with a file where `astray` puts its package, but without the directory that its path
leaves. -/
def stale : FileTree :=
  FileTree.plant {} "out/typescript/pair_client/old.ts" "planted"

/-- The path of a package leads nowhere as long as a directory that it leaves is missing. So what
lay in the directory of the package stays, the directory that the path leaves is made, and only the
next run removes the old file. -/
theorem generate_keeps_stale_file :
    ∃ plan, planFor astray (pair "ping" "echo") = .ok plan ∧ stale.WellFormed ∧
      Unhindered astray plan stale [.typeScript] ∧
      packagePlace astray plan .typeScript = ["out", "typescript", "pair_client"] ∧
      (∀ files, Package.files .typeScript plan = .ok files → ∀ file ∈ files,
        file.path ≠ ["old.ts"]) ∧
      let left := leftBehind astray .idle (pair "ping" "echo") stale
      left.get? ["out", "typescript", "pair_client", "old.ts"] = some "planted" ∧
      stale.isDirectory ["x"] = false ∧ left.isDirectory ["x"] = true ∧
      (leftBehind astray .idle (pair "ping" "echo") left).get?
        ["out", "typescript", "pair_client", "old.ts"] = none := by
  obtain ⟨plan, planned, ⟨unhindered, place, no_path⟩, run⟩ :
      ∃ plan, planFor astray (pair "ping" "echo") = .ok plan ∧
        (Unhindered astray plan stale [.typeScript] ∧
          packagePlace astray plan .typeScript = ["out", "typescript", "pair_client"] ∧
          ["old.ts"] ∉ Package.paths .typeScript plan) ∧
        let left := leftBehind astray .idle (pair "ping" "echo") stale
        left.get? ["out", "typescript", "pair_client", "old.ts"] = some "planted" ∧
          stale.isDirectory ["x"] = false ∧ left.isDirectory ["x"] = true ∧
          (leftBehind astray .idle (pair "ping" "echo") left).get?
            ["out", "typescript", "pair_client", "old.ts"] = none :=
    ⟨_, rfl, by decide +kernel⟩
  refine ⟨plan, planned, by decide +kernel, unhindered, place, ?_, run⟩
  intro files hf file hm hp
  rw [← Package.map_path_files hf, ← hp] at no_path
  exact no_path (List.mem_map_of_mem hm)

end Generation

end RpcForge
