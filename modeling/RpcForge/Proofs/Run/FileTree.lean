import Mathlib.Data.List.Induction
import RpcForge.Proofs.Except
import RpcForge.Proofs.Run.FilePath

/-!
# Laws of file trees

What each operation does to the file and the directory in every place. A path leads to the place
that its pieces tell, if it leads anywhere, so all laws are about places. Making directories adds
those that a path leads through and nothing else.
-/

namespace RpcForge.FilePath

/-- A place in the working directory, around it or the root has only such places before it. -/
theorem isGiven_of_append {place rest : FilePath} (h : isGiven (place ++ rest) = true) :
    isGiven place = true := by
  simp only [isGiven, Bool.or_eq_true, beq_iff_eq, List.all_append, Bool.and_eq_true] at h ⊢
  rcases h with h | ⟨h, -⟩
  · cases place with
    | nil => exact .inr rfl
    | cons x xs =>
      obtain ⟨rfl, ht⟩ := List.cons.inj h
      have hx : xs = [] := (List.append_eq_nil_iff.mp ht).1
      exact .inl (by rw [hx])
  · exact .inr h

/-- A place lies in another if it goes on from it. -/
theorem isWithin_iff {place directory : FilePath} :
    isWithin place directory = true ↔ ∃ rest, place = directory ++ rest := by
  rw [isWithin, List.isPrefixOf_iff_prefix]
  exact ⟨fun ⟨rest, h⟩ ↦ ⟨rest, h.symm⟩, fun ⟨rest, h⟩ ↦ ⟨rest, h.symm⟩⟩

end RpcForge.FilePath

namespace RpcForge.FileTree

open FilePath

/-! ## Files and directories in a place -/

theorem get?_without (tree : FileTree) (directory q : FilePath) :
    (tree.without directory).get? q = if q.isWithin directory then none else tree.get? q := by
  unfold get? without
  induction tree.files with
  | nil => simp
  | cons file files ih =>
    obtain ⟨place, contents⟩ := file
    by_cases hw : place.isWithin directory = true
    · by_cases hq : q = place
      · simpa [hw, hq] using ih
      · simpa [hw, List.lookup_cons, beq_eq_false_iff_ne.mpr hq] using ih
    · by_cases hq : q = place
      · simp [hw, hq]
      · simpa [hw, List.lookup_cons, beq_eq_false_iff_ne.mpr hq] using ih

theorem isDirectory_without (tree : FileTree) (directory q : FilePath) :
    (tree.without directory).isDirectory q = true ↔
      q.isGiven = true ∨ tree.isDirectory q = true ∧ q.isWithin directory = false := by
  simp only [isDirectory, without, Bool.or_eq_true, List.contains_eq_mem, decide_eq_true_eq,
    List.mem_filter, Bool.not_eq_true']
  tauto

theorem get?_put (tree : FileTree) (place q : FilePath) (contents : String) :
    (tree.put place contents).get? q = if q = place then some contents else tree.get? q := by
  unfold get? put
  induction tree.files with
  | nil =>
    by_cases hq : q = place
    · simp [hq]
    · simp [hq, List.lookup_cons, beq_eq_false_iff_ne.mpr hq]
  | cons file files ih =>
    obtain ⟨other, kept⟩ := file
    by_cases ho : other = place
    · by_cases hq : q = place
      · simpa [ho, hq] using ih
      · simpa [ho, hq, List.lookup_cons, beq_eq_false_iff_ne.mpr hq] using ih
    · by_cases hq : q = other
      · subst hq
        simp [ho]
      · simpa [ho, List.lookup_cons, beq_eq_false_iff_ne.mpr hq] using ih

@[simp]
theorem isDirectory_put (tree : FileTree) (place q : FilePath) (contents : String) :
    (tree.put place contents).isDirectory q = tree.isDirectory q := rfl

theorem isFile_eq_false_iff (tree : FileTree) (q : FilePath) :
    tree.isFile q = false ↔ tree.get? q = none := by
  simp [isFile]

theorem isDirectory_of_isGiven (tree : FileTree) {q : FilePath} (h : q.isGiven = true) :
    tree.isDirectory q = true := by
  simp [isDirectory, h]

/-- A path starts from a directory. -/
theorem isDirectory_start (tree : FileTree) (text : String) :
    tree.isDirectory (start text) = true := by
  apply isDirectory_of_isGiven
  unfold start
  split <;> rfl

private theorem exists_mem_of_get? {tree : FileTree} {q : FilePath} {contents : String}
    (h : tree.get? q = some contents) : ∃ file ∈ tree.files, file.1 = q := by
  unfold get? at h
  obtain ⟨before, after, hf, -⟩ := List.lookup_eq_some_iff.mp h
  exact ⟨(q, contents), by simp [hf], rfl⟩

/-! ## Trees as they can be -/

/-- A tree as it can be: whatever it holds lies in a directory, and no file lies where a directory
does. -/
structure WellFormed (tree : FileTree) : Prop where
  /-- No file lies where a directory does. -/
  apart : ∀ file ∈ tree.files, tree.isDirectory file.1 = false
  /-- A file lies in a directory. -/
  above_file : ∀ file ∈ tree.files, tree.isDirectory file.1.dropLast = true
  /-- A directory lies in a directory. -/
  above_directory : ∀ place ∈ tree.directories, tree.isDirectory place.dropLast = true

instance (tree : FileTree) : Decidable tree.WellFormed :=
  decidable_of_iff
    ((∀ file ∈ tree.files, tree.isDirectory file.1 = false) ∧
      (∀ file ∈ tree.files, tree.isDirectory file.1.dropLast = true) ∧
      ∀ place ∈ tree.directories, tree.isDirectory place.dropLast = true)
    ⟨fun ⟨a, b, c⟩ ↦ ⟨a, b, c⟩, fun ⟨a, b, c⟩ ↦ ⟨a, b, c⟩⟩

namespace WellFormed

variable {tree : FileTree}

theorem not_isFile (wf : tree.WellFormed) {q : FilePath} (h : tree.isDirectory q = true) :
    tree.get? q = none := by
  cases hg : tree.get? q with
  | none => rfl
  | some contents =>
    obtain ⟨file, hf, rfl⟩ := exists_mem_of_get? hg
    simp [wf.apart file hf] at h

/-- A directory that is not given lies in a directory. -/
theorem above (wf : tree.WellFormed) {q : FilePath} (hg : q.isGiven = false)
    (h : tree.isDirectory q = true) : tree.isDirectory q.dropLast = true := by
  apply wf.above_directory
  simpa [isDirectory, hg] using h

/-- A place on the way to a directory is a directory. -/
theorem isDirectory_of_append (wf : tree.WellFormed) {place rest : FilePath}
    (h : tree.isDirectory (place ++ rest) = true) : tree.isDirectory place = true := by
  induction rest using List.reverseRecOn with
  | nil => simpa using h
  | append_singleton rest name ih =>
    rw [← List.append_assoc] at h
    by_cases hg : isGiven (place ++ rest ++ [name]) = true
    · exact isDirectory_of_isGiven tree (isGiven_of_append (isGiven_of_append hg))
    · have ha := wf.above (Bool.eq_false_iff.mpr hg) h
      rw [List.dropLast_concat] at ha
      exact ih ha

/-- A place on the way to a file is a directory. -/
private theorem isDirectory_of_get?_append (wf : tree.WellFormed) {place rest : FilePath}
    {contents : String} (hn : rest ≠ []) (h : tree.get? (place ++ rest) = some contents) :
    tree.isDirectory place = true := by
  obtain ⟨file, hm, he⟩ := exists_mem_of_get? h
  have ha := wf.above_file file hm
  rw [he, List.dropLast_append_of_ne_nil hn] at ha
  exact wf.isDirectory_of_append ha

/-- Where there is no directory and no file, there is nothing below. -/
theorem nothing_below (wf : tree.WellFormed) {place : FilePath}
    (hd : tree.isDirectory place = false) (hf : tree.get? place = none) (rest : FilePath) :
    tree.get? (place ++ rest) = none ∧ tree.isDirectory (place ++ rest) = false := by
  constructor
  · by_cases hr : rest = []
    · simpa [hr] using hf
    · cases hq : tree.get? (place ++ rest) with
      | none => rfl
      | some contents =>
        have ha := wf.isDirectory_of_get?_append hr hq
        simp [hd] at ha
  · apply Bool.eq_false_iff.mpr
    intro h
    have ha := wf.isDirectory_of_append h
    simp [hd] at ha

/-- A file in a directory, where no directory is, leaves a tree as it can be. -/
theorem put (wf : tree.WellFormed) {place : FilePath}
    (hd : tree.isDirectory place = false) (hp : tree.isDirectory place.dropLast = true)
    (contents : String) : (tree.put place contents).WellFormed where
  apart file hm := by
    rcases List.mem_append.mp hm with hm | hm
    · exact wf.apart file (List.mem_filter.mp hm).1
    · rw [List.mem_singleton.mp hm]
      exact hd
  above_file file hm := by
    rcases List.mem_append.mp hm with hm | hm
    · exact wf.above_file file (List.mem_filter.mp hm).1
    · rw [List.mem_singleton.mp hm]
      exact hp
  above_directory := wf.above_directory

/-- Without a directory and all that is in it a tree is as it can be. -/
theorem without (wf : tree.WellFormed) (directory : FilePath) :
    (tree.without directory).WellFormed := by
  -- What lies outside lies in a directory that is outside as well.
  have hw : ∀ q : FilePath, q.isWithin directory = false → tree.isDirectory q.dropLast = true →
      (tree.without directory).isDirectory q.dropLast = true := by
    intro q hq hd
    apply (isDirectory_without tree directory _).mpr
    refine .inr ⟨hd, Bool.eq_false_iff.mpr fun h ↦ ?_⟩
    obtain ⟨rest, hr⟩ := isWithin_iff.mp h
    have hq' : q.isWithin directory = true := by
      rw [isWithin, List.isPrefixOf_iff_prefix]
      exact (hr ▸ List.prefix_append directory rest).trans (List.dropLast_prefix q)
    simp [hq] at hq'
  refine ⟨fun file hm ↦ ?_, fun file hm ↦ ?_, fun q hm ↦ ?_⟩
  · obtain ⟨hm, -⟩ := List.mem_filter.mp hm
    apply Bool.eq_false_iff.mpr
    intro h
    have ha := wf.apart file hm
    rcases (isDirectory_without tree directory _).mp h with hg | ⟨hd, -⟩
    · simp [isDirectory_of_isGiven tree hg] at ha
    · simp [hd] at ha
  · obtain ⟨hm, ho⟩ := List.mem_filter.mp hm
    exact hw _ (by simpa using ho) (wf.above_file file hm)
  · obtain ⟨hm, ho⟩ := List.mem_filter.mp hm
    exact hw _ (by simpa using ho) (wf.above_directory q hm)

end WellFormed

/-! ## Following a path -/

/-- Pieces lead on through directories that are there, and names in them are not too long. -/
def Open (tree : FileTree) : FilePath → List String → Prop
  | _, [] => True
  | place, piece :: pieces =>
    (tree.get? place = none ∧ tree.isDirectory place = true) ∧
      (piece = ".." ∨ piece.utf8ByteSize ≤ nameLimit) ∧ Open tree (lead place piece) pieces

theorem open_append (tree : FileTree) (place : FilePath) (pieces more : List String) :
    tree.Open place (pieces ++ more) ↔
      tree.Open place pieces ∧ tree.Open (ending place pieces) more := by
  induction pieces generalizing place with
  | nil => simp [Open, ending]
  | cons piece pieces ih => simp [Open, ih, ending, and_assoc]

/-- All places that open pieces lead through, but the last one, are directories. -/
theorem Open.isDirectory {tree : FileTree} {place : FilePath} {pieces : List String}
    (h : tree.Open place pieces) :
    ∀ q ∈ passed place pieces, tree.isDirectory q = true ∨ q = ending place pieces := by
  induction pieces generalizing place with
  | nil => simp [passed]
  | cons piece pieces ih =>
    obtain ⟨-, -, h⟩ := h
    intro q hq
    rcases List.mem_cons.mp hq with rfl | hq
    · cases pieces with
      | nil => exact .inr rfl
      | cons next rest => exact .inl h.1.2
    · exact ih h q hq

/-- Names among open pieces are not too long. -/
theorem Open.short {tree : FileTree} {place : FilePath} {pieces : List String}
    (h : tree.Open place pieces) :
    ∀ piece ∈ pieces, piece = ".." ∨ piece.utf8ByteSize ≤ nameLimit := by
  induction pieces generalizing place with
  | nil => simp
  | cons piece pieces ih =>
    obtain ⟨-, hs, h⟩ := h
    exact List.forall_mem_cons.mpr ⟨hs, ih h⟩

/-- A piece leads on from a directory, if it is no name that is too long. -/
theorem step_eq_ok_iff {tree : FileTree} {place q : FilePath} {piece : String}
    (hl : leadsOn piece = true) :
    tree.step place piece = .ok q ↔
      (tree.get? place = none ∧ tree.isDirectory place = true) ∧
        (piece = ".." ∨ piece.utf8ByteSize ≤ nameLimit) ∧ q = lead place piece := by
  have ho (r : FilePath) : (Except.ok r : Except FileError FilePath) = .ok q ↔ q = r := by
    rw [Except.ok.injEq]
    exact eq_comm
  rw [← isFile_eq_false_iff, step, lead]
  by_cases hf : tree.isFile place = true
  · simp [hf]
  · by_cases hd : tree.isDirectory place = true
    · by_cases hp : piece = ".."
      · subst hp
        simp [hf, hd, hl, ho]
      · by_cases hs : nameLimit < piece.utf8ByteSize
        · have hn : ¬piece.utf8ByteSize ≤ nameLimit := by omega
          simp [hf, hd, hl, hp, hs, hn]
        · have hn : piece.utf8ByteSize ≤ nameLimit := by omega
          simp [hf, hd, hl, hp, hs, hn, ho]
    · simp [hf, hd]

/-- A piece that does not lead on stays in a directory. -/
private theorem step_eq_ok_self {tree : FileTree} {place q : FilePath} {piece : String}
    (hl : leadsOn piece = false) (h : tree.step place piece = .ok q) : q = place := by
  unfold step at h
  split at h
  · cases h
  · split at h
    · cases h
    · simpa [hl, eq_comm] using h

theorem follow_cons (tree : FileTree) (place : FilePath) (piece : String) (pieces : List String) :
    tree.follow place (piece :: pieces) =
      (tree.step place piece >>= fun next ↦ tree.follow next pieces) := by
  simp [follow, List.foldlM_cons]

/-- Pieces that lead on can be followed if they are open, and then to the place that they tell. -/
theorem follow_eq_ok_iff {tree : FileTree} {place q : FilePath} {pieces : List String}
    (hl : ∀ piece ∈ pieces, leadsOn piece = true) :
    tree.follow place pieces = .ok q ↔ tree.Open place pieces ∧ q = ending place pieces := by
  induction pieces generalizing place with
  | nil => simp [follow, Open, ending, pure, Except.pure, eq_comm]
  | cons piece pieces ih =>
    obtain ⟨hp, hs⟩ := List.forall_mem_cons.mp hl
    rw [follow_cons, bind_eq_ok_iff]
    constructor
    · rintro ⟨next, hn, hq⟩
      obtain ⟨hd, hz, rfl⟩ := (step_eq_ok_iff hp).mp hn
      obtain ⟨ho, rfl⟩ := (ih hs).mp hq
      exact ⟨⟨hd, hz, ho⟩, rfl⟩
    · rintro ⟨⟨hd, hz, ho⟩, rfl⟩
      exact ⟨_, (step_eq_ok_iff hp).mpr ⟨hd, hz, rfl⟩, (ih hs).mpr ⟨ho, rfl⟩⟩

/-- Wherever pieces lead, those that lead on tell it. -/
private theorem eq_ending_of_follow {tree : FileTree} {place q : FilePath} {pieces : List String}
    (h : tree.follow place pieces = .ok q) : q = ending place (pieces.filter leadsOn) := by
  induction pieces generalizing place with
  | nil => simpa [follow, ending, pure, Except.pure, eq_comm] using h
  | cons piece pieces ih =>
    rw [follow_cons, bind_eq_ok_iff] at h
    obtain ⟨next, hn, hq⟩ := h
    by_cases hl : leadsOn piece = true
    · obtain ⟨-, -, rfl⟩ := (step_eq_ok_iff hl).mp hn
      rw [List.filter_cons_of_pos hl]
      exact ih hq
    · obtain rfl := step_eq_ok_self (Bool.eq_false_iff.mpr hl) hn
      rw [List.filter_cons_of_neg hl]
      exact ih hq

/-- A path leads to the place that its text tells, in every tree in which it leads anywhere. -/
theorem eq_ofText_of_resolve {tree : FileTree} {text : String} {q : FilePath}
    (h : tree.resolve text = .ok q) : q = ofText text := by
  rw [resolve, bind_eq_ok_iff] at h
  obtain ⟨_, -, hf⟩ := h
  exact eq_ending_of_follow hf

/-- A step that stays in a place goes on as if it were left out, if another piece follows. -/
private theorem follow_stay {tree : FileTree} {place : FilePath} {piece next : String}
    {pieces : List String} (hl : leadsOn piece = false) :
    tree.follow place (piece :: next :: pieces) = tree.follow place (next :: pieces) := by
  have hs : tree.step place piece = .ok place ∨
      ∃ e, ∀ other, tree.step place piece = .error e ∧ tree.step place other = .error e := by
    by_cases hf : tree.isFile place = true
    · exact .inr ⟨.notADirectory, fun other ↦ by simp [step, hf]⟩
    · by_cases hd : tree.isDirectory place = true
      · exact .inl (by simp [step, hf, hd, hl])
      · exact .inr ⟨.notFound, fun other ↦ by simp [step, hf, hd]⟩
  rcases hs with hs | ⟨e, hs⟩
  · rw [follow_cons, hs]
    rfl
  · rw [follow_cons, follow_cons, (hs next).1, (hs next).2]
    rfl

/-- Pieces before the last one are followed as if those that do not lead on were left out. -/
private theorem follow_filter (tree : FileTree) (place : FilePath) (front : List String)
    (last : String) :
    tree.follow place (front ++ [last]) = tree.follow place (front.filter leadsOn ++ [last]) := by
  induction front generalizing place with
  | nil => rfl
  | cons piece front ih =>
    by_cases hp : leadsOn piece = true
    · rw [List.filter_cons_of_pos hp, List.cons_append, List.cons_append, follow_cons, follow_cons]
      simp only [ih]
    · rw [List.filter_cons_of_neg hp, ← ih]
      cases front with
      | nil => exact follow_stay (Bool.eq_false_iff.mpr hp)
      | cons next rest => exact follow_stay (Bool.eq_false_iff.mpr hp)

/-- A path whose last piece is a plain name leads somewhere if it can and its pieces are open. -/
theorem resolve_eq_ok_iff {tree : FileTree} {text : String} {q : FilePath} (h : EndsPlain text) :
    tree.resolve text = .ok q ↔
      check text = .ok () ∧ tree.Open (start text) (route text) ∧ q = ofText text := by
  obtain ⟨front, last, hp, hl⟩ := h
  have hr : route text = front.filter leadsOn ++ [last] := by
    rw [route, hp, List.filter_append, List.filter_cons_of_pos hl.leadsOn, List.filter_nil]
  have hm : ∀ piece ∈ route text, leadsOn piece = true := fun piece h ↦ (List.mem_filter.mp h).2
  rw [resolve, bind_eq_ok_iff, hp, follow_filter tree _ front last, ← hr]
  constructor
  · rintro ⟨⟨⟩, hc, hf⟩
    exact ⟨hc, (follow_eq_ok_iff hm).mp hf⟩
  · rintro ⟨hc, hf⟩
    exact ⟨(), hc, (follow_eq_ok_iff hm).mpr hf⟩

end RpcForge.FileTree
