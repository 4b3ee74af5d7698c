import RpcForge.Proofs.Run.FileTree

/-!
# Making directories

Making the directories of a path adds those that the path leads through and changes no file. It
succeeds unless a file is in the way or a name is too long. A path may leave a directory again;
where it leaves only directories that are there before, all that it adds is on the way to its end.
-/

namespace RpcForge.FileTree

open FilePath

/-! ## Trees with more directories -/

/-- A tree with directories in given places besides those of another one. -/
structure Made (tree made : FileTree) (places : List FilePath) : Prop where
  /-- The files are the same. -/
  files_eq : made.files = tree.files
  /-- The directories are those of before and the given ones. -/
  isDirectory_iff : ∀ q, made.isDirectory q = true ↔ tree.isDirectory q = true ∨ q ∈ places
  /-- The tree can be as it is, if it could before. -/
  wellFormed : tree.WellFormed → made.WellFormed

theorem Made.get?_eq {tree made : FileTree} {places : List FilePath} (h : Made tree made places)
    (q : FilePath) : made.get? q = tree.get? q := by
  rw [get?, get?, h.files_eq]

/-- Nothing is made where all directories are there. -/
private theorem Made.refl {tree : FileTree} {places : List FilePath}
    (h : ∀ q ∈ places, tree.isDirectory q = true) : Made tree tree places where
  files_eq := rfl
  isDirectory_iff q := ⟨.inl, fun hq ↦ hq.elim id (h q)⟩
  wellFormed := id

/-- What is made in two steps, of which the second one goes through all places of the first. -/
private theorem Made.trans {tree mid made : FileTree} {first places : List FilePath}
    (h : Made tree mid first) (h' : Made mid made places) (hs : first ⊆ places) :
    Made tree made places where
  files_eq := h'.files_eq.trans h.files_eq
  isDirectory_iff q := by
    rw [h'.isDirectory_iff, h.isDirectory_iff, or_assoc]
    exact or_congr_right ⟨fun hq ↦ hq.elim (@hs q) id, .inr⟩
  wellFormed wf := h'.wellFormed (h.wellFormed wf)

/-- Where pieces are open, making the directory at their end makes all that they lead through. -/
theorem Made.passed {tree made : FileTree} {place : FilePath} {pieces : List String}
    (hn : pieces ≠ []) (ho : tree.Open place pieces) (h : Made tree made [ending place pieces]) :
    Made tree made (passed place pieces) where
  files_eq := h.files_eq
  isDirectory_iff q := by
    rw [h.isDirectory_iff, List.mem_singleton]
    constructor
    · rintro (hq | rfl)
      · exact .inl hq
      · exact .inr (ending_mem_passed hn)
    · rintro (hq | hq)
      · exact .inl hq
      · exact ho.isDirectory q hq
  wellFormed := h.wellFormed

/-! ## Making one directory -/

/-- From a directory a piece leads to a directory or to a place in a directory. -/
private theorem WellFormed.above_lead {tree : FileTree} (wf : tree.WellFormed) {place : FilePath}
    (hd : tree.isDirectory place = true) (piece : String) :
    tree.isDirectory (lead place piece) = true ∨
      tree.isDirectory (lead place piece).dropLast = true := by
  unfold lead
  split
  · unfold parent
    split
    · exact .inl (isDirectory_of_isGiven tree rfl)
    · exact .inr (by rwa [List.dropLast_concat])
    · exact .inl hd
    · next name _ _ hp =>
      obtain ⟨front, rfl⟩ := List.getLast?_eq_some_iff.mp hp
      rw [List.dropLast_concat]
      exact .inl (wf.isDirectory_of_append hd)
  · exact .inr (by rwa [List.dropLast_concat])

/-- A directory that is new lies in a directory, so the tree is as it can be. -/
private theorem made_concat {tree : FileTree} {place : FilePath} (hf : tree.get? place = none)
    (hp : tree.WellFormed → tree.isDirectory place.dropLast = true) :
    Made tree { tree with directories := tree.directories ++ [place] } [place] := by
  have hi : ∀ q,
      ({ tree with directories := tree.directories ++ [place] } : FileTree).isDirectory q = true ↔
        tree.isDirectory q = true ∨ q ∈ [place] := by
    simp [isDirectory, or_assoc]
  refine ⟨rfl, hi, fun wf ↦ ⟨?_, ?_, ?_⟩⟩
  · intro file hm
    apply Bool.eq_false_iff.mpr
    intro h
    rcases (hi _).mp h with h | h
    · simp [wf.apart file hm] at h
    · -- A file in the new place would be found there.
      rw [List.mem_singleton] at h
      have hs : tree.get? place ≠ none := by
        rw [get?, Ne, List.lookup_eq_none_iff]
        intro hn
        simpa [h] using hn file hm
      exact hs hf
  · intro file hm
    exact (hi _).mpr (.inl (wf.above_file file hm))
  · intro q hm
    apply (hi _).mpr
    rcases List.mem_append.mp hm with hm | hm
    · exact .inl (wf.above_directory q hm)
    · rw [List.mem_singleton.mp hm]
      exact .inl (hp wf)

/-- A directory that is made where pieces lead: they are open, and it is all that is new. -/
private theorem makeDirectory_eq_ok {tree made : FileTree} {place : FilePath} {pieces : List String}
    (hn : pieces ≠ []) (hl : ∀ piece ∈ pieces, leadsOn piece = true)
    (h : tree.makeDirectory place pieces = .ok made) :
    tree.Open place pieces ∧ Made tree made [ending place pieces] := by
  rw [makeDirectory, bind_eq_ok_iff] at h
  obtain ⟨q, hq, h⟩ := h
  obtain ⟨ho, rfl⟩ := (follow_eq_ok_iff hl).mp hq
  split at h
  · cases h
  · next ht =>
    obtain ⟨hf, hd⟩ : tree.get? (ending place pieces) = none ∧
        tree.isDirectory (ending place pieces) = false := by
      simpa [isThere, isFile] using ht
    cases h
    refine ⟨ho, made_concat hf fun wf ↦ ?_⟩
    obtain ⟨front, last, rfl⟩ := (List.eq_nil_or_concat' pieces).resolve_left hn
    obtain ⟨-, ⟨-, hd'⟩, -⟩ := (open_append tree place front [last]).mp ho
    rw [ending_append] at hd ⊢
    rcases wf.above_lead hd' last with h | h
    · exact absurd h (by simpa [ending] using hd)
    · exact h

/-- Ensuring the directory where pieces lead: they are open, and nothing else is new. -/
private theorem ensureDirectory_eq_ok {tree made : FileTree} {place : FilePath}
    {pieces : List String} (hn : pieces ≠ []) (hl : ∀ piece ∈ pieces, leadsOn piece = true)
    (h : tree.ensureDirectory place pieces = .ok made) : Made tree made (passed place pieces) := by
  rw [ensureDirectory] at h
  cases hm : tree.makeDirectory place pieces with
  | ok made' =>
    rw [hm] at h
    cases h
    obtain ⟨ho, hmade⟩ := makeDirectory_eq_ok hn hl hm
    exact hmade.passed hn ho
  | error e =>
    rw [hm] at h
    simp only [leadsToDirectory] at h
    cases hf : tree.follow place pieces with
    | error e' => simp [hf] at h
    | ok q =>
      obtain ⟨ho, rfl⟩ := (follow_eq_ok_iff hl).mp hf
      by_cases hd : tree.isDirectory (ending place pieces) = true
      · simp only [hf, hd, if_true, Except.ok.injEq] at h
        subst h
        exact (Made.refl (by simpa using hd)).passed hn ho
      · simp [hf, hd] at h

/-! ## Making all directories of a path -/

/-- Making directories makes those that the pieces lead through. -/
private theorem ensureDirectories_eq_ok {tree made : FileTree} {place : FilePath}
    {outward : List String} (hl : ∀ piece ∈ outward, leadsOn piece = true)
    (h : tree.ensureDirectories place outward = (made, .ok ())) :
    Made tree made (passed place outward.reverse) := by
  induction outward generalizing made with
  | nil =>
    cases h
    exact .refl (by simp [passed])
  | cons piece outer ih =>
    have hn : (piece :: outer).reverse ≠ [] := by simp
    have hl' : ∀ p ∈ (piece :: outer).reverse, leadsOn p = true :=
      fun p hp ↦ hl p (List.mem_reverse.mp hp)
    rw [ensureDirectories] at h
    cases he : tree.ensureDirectory place (piece :: outer).reverse with
    | ok made' =>
      simp only [he, Prod.mk.injEq, and_true] at h
      subst h
      exact ensureDirectory_eq_ok hn hl' he
    | error e =>
      cases e with
      | notFound =>
        simp only [he] at h
        cases ho : tree.ensureDirectories place outer with
        | mk mid result =>
          cases result with
          | error e => simp [ho] at h
          | ok _ =>
            -- What leads to the last piece is made first, and then the last one in it.
            have hmid := ih (List.forall_mem_cons.mp hl).2 ho
            cases ha : mid.ensureDirectory place (piece :: outer).reverse with
            | error e =>
              simp only [ho, ha] at h
              cases h
            | ok made' =>
              simp only [ho, ha, Prod.mk.injEq, and_true] at h
              subst h
              apply hmid.trans (ensureDirectory_eq_ok hn hl' ha)
              rw [List.reverse_cons, passed_append]
              exact List.subset_append_left _ _
      | _ =>
        simp only [he] at h
        cases h

/-- Making the directories of a path makes those that it leads through. -/
theorem makeDirectories_eq_ok {tree made : FileTree} {text : String}
    (h : tree.makeDirectories text = (made, .ok ())) : Made tree made (way text) := by
  rw [makeDirectories] at h
  split at h
  · next he =>
    cases h
    obtain rfl := String.isEmpty_iff.mp he
    exact .refl (by simp [way, route, Text.pieces, Text.piecesBy, leadsOn, passed])
  · cases hc : check text with
    | error e => simp [hc] at h
    | ok _ =>
      simp only [hc] at h
      have hl : ∀ piece ∈ (route text).reverse, leadsOn piece = true :=
        fun piece hp ↦ (List.mem_filter.mp (List.mem_reverse.mp hp)).2
      have hm := ensureDirectories_eq_ok hl h
      rwa [List.reverse_reverse] at hm

/-- A path whose directories are made can lead somewhere, unless it is empty. -/
theorem check_of_makeDirectories {tree made : FileTree} {text : String}
    (h : tree.makeDirectories text = (made, .ok ())) : text = "" ∨ check text = .ok () := by
  rw [makeDirectories] at h
  split at h
  · next he => exact .inl (String.isEmpty_iff.mp he)
  · cases hc : check text with
    | error e => simp [hc] at h
    | ok _ => exact .inr rfl

/-! ## When making directories succeeds -/

/-- Where no file is in the way and no name is too long, a path leads somewhere or a directory is
missing. -/
private theorem follow_eq_error {tree : FileTree} {place : FilePath} {pieces : List String}
    {e : FileError} (hl : ∀ piece ∈ pieces, leadsOn piece = true)
    (hf : ∀ q ∈ place :: passed place pieces, tree.get? q = none)
    (hs : ∀ piece ∈ pieces, piece = ".." ∨ piece.utf8ByteSize ≤ nameLimit)
    (h : tree.follow place pieces = .error e) : e = .notFound := by
  induction pieces generalizing place with
  | nil => simp [follow, pure, Except.pure] at h
  | cons piece pieces ih =>
    obtain ⟨hl₁, hl₂⟩ := List.forall_mem_cons.mp hl
    obtain ⟨hf₁, hf₂⟩ := List.forall_mem_cons.mp hf
    obtain ⟨hs₁, hs₂⟩ := List.forall_mem_cons.mp hs
    by_cases hd : tree.isDirectory place = true
    · have hn : tree.step place piece = .ok (lead place piece) :=
        (step_eq_ok_iff hl₁).mpr ⟨⟨hf₁, hd⟩, hs₁, rfl⟩
      rw [follow_cons, hn] at h
      exact ih hl₂ hf₂ hs₂ h
    · have hn : tree.step place piece = .error .notFound := by
        simp [step, (isFile_eq_false_iff tree place).mpr hf₁, hd]
      rw [follow_cons, hn] at h
      exact (Except.error.inj h).symm

/-- A directory is ensured, or one on the way to it is missing. -/
private theorem ensureDirectory_cases {tree : FileTree} {place : FilePath} {pieces : List String}
    (hl : ∀ piece ∈ pieces, leadsOn piece = true)
    (hf : ∀ q ∈ place :: passed place pieces, tree.get? q = none)
    (hs : ∀ piece ∈ pieces, piece = ".." ∨ piece.utf8ByteSize ≤ nameLimit) :
    (∃ made, tree.ensureDirectory place pieces = .ok made) ∨
      tree.ensureDirectory place pieces = .error .notFound ∧ ¬tree.Open place pieces := by
  cases hq : tree.follow place pieces with
  | error e =>
    obtain rfl := follow_eq_error hl hf hs hq
    refine .inr ⟨?_, ?_⟩
    · simp [ensureDirectory, makeDirectory, leadsToDirectory, hq, bind, Except.bind]
    · intro ho
      rw [(follow_eq_ok_iff hl).mpr ⟨ho, rfl⟩] at hq
      cases hq
  | ok q =>
    left
    obtain ⟨ho, rfl⟩ := (follow_eq_ok_iff hl).mp hq
    have hg : tree.isFile (ending place pieces) = false := by
      apply (isFile_eq_false_iff tree _).mpr
      by_cases hn : pieces = []
      · exact hf _ (by simp [hn, ending])
      · exact hf _ (.tail _ (ending_mem_passed hn))
    by_cases hd : tree.isDirectory (ending place pieces) = true
    · exact ⟨tree, by simp [ensureDirectory, makeDirectory, leadsToDirectory, hq, bind, Except.bind,
        isThere, hd]⟩
    · simp only [ensureDirectory, makeDirectory, hq, bind, Except.bind, isThere, hg, hd]
      exact ⟨_, rfl⟩

/-- Pieces are open where all that they lead through are directories. -/
theorem open_of_forall {tree : FileTree} {place : FilePath} {pieces : List String}
    (hf : ∀ q ∈ place :: passed place pieces, tree.get? q = none)
    (hd : ∀ q ∈ place :: passed place pieces, tree.isDirectory q = true)
    (hs : ∀ piece ∈ pieces, piece = ".." ∨ piece.utf8ByteSize ≤ nameLimit) :
    tree.Open place pieces := by
  induction pieces generalizing place with
  | nil => trivial
  | cons piece pieces ih =>
    obtain ⟨hf₁, hf₂⟩ := List.forall_mem_cons.mp hf
    obtain ⟨hd₁, hd₂⟩ := List.forall_mem_cons.mp hd
    obtain ⟨hs₁, hs₂⟩ := List.forall_mem_cons.mp hs
    exact ⟨⟨hf₁, hd₁⟩, hs₁, ih hf₂ hd₂ hs₂⟩

/-- Once the directories that pieces lead through are made, one more piece is open. -/
theorem open_concat_of_made {tree mid : FileTree} {place : FilePath} {pieces : List String}
    {piece : String} (h : Made tree mid (passed place pieces))
    (hp : tree.isDirectory place = true)
    (hf : ∀ q ∈ place :: passed place pieces, tree.get? q = none)
    (hs : ∀ p ∈ pieces ++ [piece], p = ".." ∨ p.utf8ByteSize ≤ nameLimit) :
    mid.Open place (pieces ++ [piece]) := by
  have hf' : ∀ q ∈ place :: passed place pieces, mid.get? q = none := by
    intro q hq
    rw [h.get?_eq, hf q hq]
  have hd : ∀ q ∈ place :: passed place pieces, mid.isDirectory q = true := by
    intro q hq
    apply (h.isDirectory_iff q).mpr
    rcases List.mem_cons.mp hq with rfl | hq
    · exact .inl hp
    · exact .inr hq
  have he : ending place pieces ∈ place :: passed place pieces := by
    by_cases hn : pieces = []
    · simp [hn, ending]
    · exact .tail _ (ending_mem_passed hn)
  obtain ⟨hs₁, hs₂⟩ := List.forall_mem_append.mp hs
  rw [open_append]
  exact ⟨open_of_forall hf' hd hs₁, ⟨hf' _ he, hd _ he⟩, hs₂ piece (.head _), trivial⟩

/-- Directories are made where no file is in the way and no name is too long. -/
private theorem exists_ensureDirectories {tree : FileTree} {place : FilePath}
    {outward : List String} (hl : ∀ piece ∈ outward, leadsOn piece = true)
    (hp : tree.isDirectory place = true)
    (hf : ∀ q ∈ place :: passed place outward.reverse, tree.get? q = none)
    (hs : ∀ piece ∈ outward, piece = ".." ∨ piece.utf8ByteSize ≤ nameLimit) :
    ∃ made, tree.ensureDirectories place outward = (made, .ok ()) := by
  induction outward with
  | nil => exact ⟨tree, rfl⟩
  | cons piece outer ih =>
    have hl' : ∀ p ∈ (piece :: outer).reverse, leadsOn p = true :=
      fun p hp ↦ hl p (List.mem_reverse.mp hp)
    have hs' : ∀ p ∈ (piece :: outer).reverse, p = ".." ∨ p.utf8ByteSize ≤ nameLimit :=
      fun p hp ↦ hs p (List.mem_reverse.mp hp)
    rw [ensureDirectories]
    rcases ensureDirectory_cases hl' hf hs' with ⟨made, he⟩ | ⟨he, -⟩
    · exact ⟨made, by rw [he]⟩
    · have hsub : place :: passed place outer.reverse ⊆
          place :: passed place (piece :: outer).reverse := by
        rw [List.reverse_cons, passed_append]
        exact List.cons_subset_cons _ (List.subset_append_left _ _)
      have hf₀ : ∀ q ∈ place :: passed place outer.reverse, tree.get? q = none :=
        fun q hq ↦ hf q (hsub hq)
      obtain ⟨mid, hm⟩ := ih (List.forall_mem_cons.mp hl).2 hf₀ (List.forall_mem_cons.mp hs).2
      have hmade := ensureDirectories_eq_ok (List.forall_mem_cons.mp hl).2 hm
      -- All that leads to the last piece are directories now, so it is not missing any more.
      have ho : mid.Open place (piece :: outer).reverse := by
        rw [List.reverse_cons] at hs' ⊢
        exact open_concat_of_made hmade hp hf₀ hs'
      have hf' : ∀ q ∈ place :: passed place (piece :: outer).reverse, mid.get? q = none := by
        intro q hq
        rw [hmade.get?_eq, hf q hq]
      rcases ensureDirectory_cases hl' hf' hs' with ⟨made, ha⟩ | ⟨-, hc⟩
      · exact ⟨made, by simp only [he, hm, ha]⟩
      · exact absurd ho hc

/-- The directories of a path are made where no file is in the way and no name is too long. -/
theorem exists_makeDirectories {tree : FileTree} {text : String} (hc : check text = .ok ())
    (hf : ∀ q ∈ start text :: way text, tree.get? q = none)
    (hs : ∀ piece ∈ route text, piece = ".." ∨ piece.utf8ByteSize ≤ nameLimit) :
    ∃ made, tree.makeDirectories text = (made, .ok ()) := by
  have he : text.isEmpty = false := by
    simpa using ((check_eq_ok_iff text).mp hc).2.1
  have hl : ∀ piece ∈ (route text).reverse, leadsOn piece = true :=
    fun piece hp ↦ (List.mem_filter.mp (List.mem_reverse.mp hp)).2
  obtain ⟨made, hm⟩ := exists_ensureDirectories hl (isDirectory_start tree text)
    (by rwa [List.reverse_reverse]) (by simpa using hs)
  exact ⟨made, by rw [makeDirectories, he, hc]; exact hm⟩

/-! ## Paths that leave directories again -/

/-- Pieces that leave a directory for the one around it leave only such as are there. -/
def Anchored (tree : FileTree) : FilePath → List String → Prop
  | _, [] => True
  | place, piece :: pieces =>
    (piece = ".." → tree.isDirectory place = true) ∧ Anchored tree (lead place piece) pieces

instance decidableAnchored (tree : FileTree) :
    (place : FilePath) → (pieces : List String) → Decidable (tree.Anchored place pieces)
  | _, [] => .isTrue trivial
  | place, piece :: pieces =>
    have := decidableAnchored tree (lead place piece) pieces
    inferInstanceAs (Decidable (_ ∧ _))

theorem anchored_append (tree : FileTree) (place : FilePath) (pieces more : List String) :
    tree.Anchored place (pieces ++ more) ↔
      tree.Anchored place pieces ∧ tree.Anchored (ending place pieces) more := by
  induction pieces generalizing place with
  | nil => simp [Anchored, ending]
  | cons piece pieces ih => simp [Anchored, ih, ending, and_assoc]

/-- Plain names leave no directory. -/
theorem anchored_plain {tree : FileTree} {names : List String}
    (h : ∀ name ∈ names, IsPlain name) (place : FilePath) : tree.Anchored place names := by
  induction names generalizing place with
  | nil => trivial
  | cons name names ih =>
    obtain ⟨hn, hs⟩ := List.forall_mem_cons.mp h
    exact ⟨fun he ↦ absurd he hn.ne_dots, ih hs _⟩

/-- Where all that pieces lead through are directories, they leave only such as are there. -/
theorem anchored_of_forall {tree : FileTree} {place : FilePath} {pieces : List String}
    (h : ∀ q ∈ place :: passed place pieces, tree.isDirectory q = true) :
    tree.Anchored place pieces := by
  induction pieces generalizing place with
  | nil => trivial
  | cons piece pieces ih =>
    obtain ⟨hd, hs⟩ := List.forall_mem_cons.mp h
    exact ⟨fun _ ↦ hd, ih hs⟩

/-- What such pieces lead through is there, or on the way to where they end. -/
theorem Anchored.isDirectory {tree : FileTree} (wf : tree.WellFormed) {place : FilePath}
    {pieces : List String} (hr : ∀ piece ∈ pieces, piece ≠ "/") (h : tree.Anchored place pieces) :
    ∀ q ∈ place :: passed place pieces, tree.isDirectory q = true ∨ q <+: ending place pieces := by
  induction pieces generalizing place with
  | nil =>
    intro q hq
    rw [passed, List.mem_singleton] at hq
    exact .inr (by rw [hq, ending]; exact List.prefix_rfl)
  | cons piece pieces ih =>
    obtain ⟨hr₁, hr₂⟩ := List.forall_mem_cons.mp hr
    obtain ⟨hu, h⟩ := h
    have hrest := ih hr₂ h
    rw [List.forall_mem_cons]
    refine ⟨?_, hrest⟩
    by_cases hp : piece = ".."
    · exact .inl (hu hp)
    · -- What lies in a place that is there, or on the way, is such a place itself.
      have hl : lead place piece = place ++ [piece] := if_neg hp
      rcases hrest _ (.head _) with hd | hd
      · rw [hl] at hd
        exact .inl (wf.isDirectory_of_append hd)
      · exact .inr ((hl ▸ List.prefix_append place [piece]).trans hd)

end RpcForge.FileTree
