import Mathlib.Data.List.Basic
import RpcForge.Package.File
import RpcForge.Proofs.Text.Pieces
import RpcForge.Run.FileTree

/-!
# Where paths lead

A path leads to the same place in every tree in which it leads somewhere: the place is read off the
pieces of the path. A path that goes on with plain names from another one leads to the place below
that the names tell.
-/

namespace RpcForge.FilePath

/-! ## Places along a path -/

/-- The place that a piece leads on to. -/
def lead (place : FilePath) (piece : String) : FilePath :=
  if piece = ".." then place.parent else place ++ [piece]

/-- The place that pieces lead to. -/
def ending (place : FilePath) (pieces : List String) : FilePath :=
  pieces.foldl lead place

/-- The places that pieces lead to one after another. -/
def passed : FilePath → List String → List FilePath
  | _, [] => []
  | place, piece :: pieces => lead place piece :: passed (lead place piece) pieces

/-- The pieces of a path that lead on. -/
def route (text : String) : List String :=
  (Text.pieces '/' text).filter leadsOn

/-- The place that a path leads to. -/
def ofText (text : String) : FilePath :=
  ending (start text) (route text)

/-- The places that a path leads through, with the one at its end. -/
def way (text : String) : List FilePath :=
  passed (start text) (route text)

theorem ending_append (place : FilePath) (pieces more : List String) :
    ending place (pieces ++ more) = ending (ending place pieces) more := by
  simp only [ending, List.foldl_append]

theorem passed_append (place : FilePath) (pieces more : List String) :
    passed place (pieces ++ more) = passed place pieces ++ passed (ending place pieces) more := by
  induction pieces generalizing place with
  | nil => rfl
  | cons piece pieces ih => simp [passed, ending, ih]

/-- The last place that pieces lead to is the one at the end. -/
theorem ending_mem_passed {place : FilePath} {pieces : List String} (h : pieces ≠ []) :
    ending place pieces ∈ passed place pieces := by
  induction pieces generalizing place with
  | nil => exact absurd rfl h
  | cons piece pieces ih =>
    cases pieces with
    | nil => exact .head _
    | cons next rest => exact .tail _ (ih (List.cons_ne_nil next rest))

/-! ## Plain names -/

/-- A name as a directory or a file may have it. -/
structure IsPlain (name : String) : Prop where
  /-- It is not empty. -/
  ne_empty : name ≠ ""
  /-- It is not the name for the directory itself. -/
  ne_dot : name ≠ "."
  /-- It is not the name for the directory around. -/
  ne_dots : name ≠ ".."
  /-- It is one piece of a path. -/
  one_piece : '/' ∉ name.toList

instance (name : String) : Decidable (IsPlain name) :=
  decidable_of_iff (name ≠ "" ∧ name ≠ "." ∧ name ≠ ".." ∧ '/' ∉ name.toList)
    ⟨fun ⟨a, b, c, d⟩ ↦ ⟨a, b, c, d⟩, fun ⟨a, b, c, d⟩ ↦ ⟨a, b, c, d⟩⟩

theorem IsPlain.leadsOn {name : String} (h : IsPlain name) : leadsOn name = true := by
  simp [FilePath.leadsOn, h.ne_empty, h.ne_dot]

private theorem IsPlain.lead_eq {name : String} (h : IsPlain name) (place : FilePath) :
    lead place name = place ++ [name] :=
  if_neg h.ne_dots

/-- Plain names lead to the place below that they tell. -/
theorem ending_plain {names : List String} (h : ∀ name ∈ names, IsPlain name) (place : FilePath) :
    ending place names = place ++ names := by
  induction names generalizing place with
  | nil => simp [ending]
  | cons name names ih =>
    obtain ⟨hn, hs⟩ := List.forall_mem_cons.mp h
    show ending (lead place name) names = _
    rw [ih hs, hn.lead_eq, List.append_assoc, List.singleton_append]

/-- Plain names lead through the places that some of them tell. -/
theorem mem_passed_plain {names : List String} (h : ∀ name ∈ names, IsPlain name)
    {place q : FilePath} :
    q ∈ passed place names ↔ ∃ first, first ≠ [] ∧ first <+: names ∧ q = place ++ first := by
  induction names generalizing place with
  | nil => simp +contextual [passed]
  | cons name names ih =>
    obtain ⟨hn, hs⟩ := List.forall_mem_cons.mp h
    rw [passed, List.mem_cons, ih hs, hn.lead_eq]
    constructor
    · rintro (rfl | ⟨first, hf, hp, rfl⟩)
      · exact ⟨[name], List.cons_ne_nil _ _, List.prefix_append [name] names, rfl⟩
      · exact ⟨name :: first, List.cons_ne_nil _ _, List.cons_prefix_cons.mpr ⟨rfl, hp⟩, by simp⟩
    · rintro ⟨first, hf, hp, rfl⟩
      cases first with
      | nil => exact absurd rfl hf
      | cons x first =>
        obtain ⟨rfl, hp'⟩ := List.cons_prefix_cons.mp hp
        by_cases he : first = []
        · exact .inl (by rw [he])
        · exact .inr ⟨first, he, hp', by simp⟩

/-! ## Paths that go on from another one -/

/-- A path can lead somewhere if it has no null character, is not empty and is not too long. -/
theorem check_eq_ok_iff (text : String) :
    check text = .ok () ↔ '\x00' ∉ text.toList ∧ text ≠ "" ∧ text.utf8ByteSize ≤ pathLimit := by
  unfold check
  split
  · next hz => simpa using fun hn ↦ absurd (by simpa using hz) hn
  · split
    · next he => simpa using fun _ he' ↦ absurd (by simpa using he) he'
    · split
      · next hl => simpa using fun _ _ ↦ hl
      · next hz he hl => simpa using ⟨by simpa using hz, by simpa using he, by omega⟩

/-- What begins a path that can lead somewhere can lead somewhere, unless it is empty. -/
private theorem check_of_append {text more : String} (hc : check (text ++ more) = .ok ())
    (he : text ≠ "") : check text = .ok () := by
  obtain ⟨hz, -, hl⟩ := (check_eq_ok_iff _).mp hc
  rw [String.utf8ByteSize_append] at hl
  refine (check_eq_ok_iff text).mpr ⟨fun hm ↦ hz ?_, he, by omega⟩
  rw [String.toList_append]
  exact List.mem_append_left _ hm

/-- A path of plain names has these names as its pieces. -/
private theorem pieces_pathText {names : List String} (hn : names ≠ [])
    (h : ∀ name ∈ names, IsPlain name) : Text.pieces '/' (pathText names) = names :=
  Text.pieces_intercalate hn fun name hm ↦ (h name hm).one_piece

/-- A path begins at the root if its first character is the separator. -/
private theorem startsWith_cons {text : String} {c : Char} {cs : List Char}
    (h : text.toList = c :: cs) :
    Text.startsWith text "/" = (c == '/') := by
  rw [Text.startsWith, h, BEq.comm]
  simp [List.isPrefixOf]

/-- A text that is not empty has a first character. -/
private theorem exists_cons_of_ne_empty {text : String} (h : text ≠ "") :
    ∃ c cs, text.toList = c :: cs :=
  List.exists_cons_of_ne_nil (mt String.toList_eq_nil_iff.mp h)

/-- A path of plain names does not begin at the root. -/
private theorem startsWith_pathText {names : List String} (hn : names ≠ [])
    (h : ∀ name ∈ names, IsPlain name) : Text.startsWith (pathText names) "/" = false := by
  cases names with
  | nil => exact absurd rfl hn
  | cons name names =>
    obtain ⟨hp, -⟩ := List.forall_mem_cons.mp h
    obtain ⟨c, cs, hc⟩ := exists_cons_of_ne_empty hp.ne_empty
    have hs : c ≠ '/' := by
      rintro rfl
      exact hp.one_piece (by simp [hc])
    have ht : ∃ rest, (pathText (name :: names)).toList = c :: rest := by
      cases names with
      | nil => exact ⟨cs, by simp [pathText, hc]⟩
      | cons next rest => simp [pathText, String.intercalate_cons_cons, hc]
    obtain ⟨rest, ht⟩ := ht
    simpa [startsWith_cons ht] using hs

/-- A path whose last piece is a plain name, so that it leads on to its end. -/
def EndsPlain (text : String) : Prop :=
  ∃ front last, Text.pieces '/' text = front ++ [last] ∧ IsPlain last

namespace EndsPlain

variable {text : String} (h : EndsPlain text)
include h

/-- The last name of such a path is the last that leads on. -/
private theorem exists_route : ∃ front last, IsPlain last ∧ route text = front ++ [last] ∧
    ofText text = ending (start text) front ++ [last] := by
  obtain ⟨front, last, hp, hl⟩ := h
  have hr : route text = front.filter leadsOn ++ [last] := by
    rw [route, hp, List.filter_append, List.filter_cons_of_pos hl.leadsOn, List.filter_nil]
  refine ⟨front.filter leadsOn, last, hl, hr, ?_⟩
  rw [ofText, hr, ending_append]
  exact hl.lead_eq _

theorem ne_empty : text ≠ "" := by
  rintro rfl
  obtain ⟨_, last, hl, hr, -⟩ := h.exists_route
  simp [route, Text.pieces, Text.piecesBy, leadsOn] at hr

/-- The end of such a path is on its way. -/
theorem mem_way : ofText text ∈ way text := by
  obtain ⟨front, last, -, hr, -⟩ := h.exists_route
  apply ending_mem_passed
  simp [hr]

/-- The end of such a path is neither the working directory, nor one around it, nor the root. -/
theorem not_isGiven : isGiven (ofText text) = false := by
  obtain ⟨front, last, hl, -, ho⟩ := h.exists_route
  have hs : last ≠ "/" := by
    rintro rfl
    exact hl.one_piece (by simp)
  have hn : ending (start text) front ++ [last] ≠ ["/"] := by
    intro he
    have := congrArg List.getLast? he
    simp [hs] at this
  rw [ho]
  simp [isGiven, hn, hl.ne_dots]

end EndsPlain

section Joined

variable {names : List String} (hn : names ≠ []) (h : ∀ name ∈ names, IsPlain name)
include hn h

/-- Plain names stand behind the first path, with a separator between them unless it is empty or
ends with one. -/
private theorem joinPaths_cases (text : String) :
    (text = "" ∧ joinPaths text (pathText names) = pathText names) ∨
      text ≠ "" ∧ ∃ front, (text = front ∨ text = front ++ String.singleton '/') ∧
        joinPaths text (pathText names) = front ++ String.singleton '/' ++ pathText names := by
  have hs := startsWith_pathText hn h
  unfold joinPaths
  by_cases he : text = ""
  · exact .inl ⟨he, by simp [he]⟩
  · right
    have hj : (text.isEmpty || Text.startsWith (pathText names) "/") = false := by simp [he, hs]
    rw [if_neg (by simp [hj])]
    refine ⟨he, ?_⟩
    by_cases hl : text.toList.getLast? = some '/'
    · obtain ⟨cs, hc⟩ := List.getLast?_eq_some_iff.mp hl
      have ht : text = String.ofList cs ++ String.singleton '/' := by
        apply String.toList_inj.mp
        simp [hc]
      exact ⟨String.ofList cs, .inr ht, by rw [if_pos hl, ← ht]⟩
    · exact ⟨text, .inl rfl, by rw [if_neg hl]; rfl⟩

/-- A path that goes on with plain names starts where the first one starts. -/
theorem start_joinPaths (text : String) : start (joinPaths text (pathText names)) = start text := by
  rcases joinPaths_cases hn h text with ⟨rfl, hj⟩ | ⟨he, front, ht, hj⟩
  · simp only [start, hj, startsWith_pathText hn h]
    rfl
  · obtain ⟨c, cs, hc⟩ := exists_cons_of_ne_empty he
    have hc' : ∃ cs', (joinPaths text (pathText names)).toList = c :: cs' := by
      rcases ht with rfl | rfl
      · exact ⟨_, by rw [hj, String.append_assoc, String.toList_append, hc]; rfl⟩
      · exact ⟨_, by rw [hj, String.toList_append, hc]; rfl⟩
    obtain ⟨cs', hc'⟩ := hc'
    rw [start, start, startsWith_cons hc, startsWith_cons hc']

/-- A path that goes on with plain names ends with these names, and what is before them leads on as
the first path does. -/
private theorem pieces_joinPaths (text : String) :
    ∃ front, Text.pieces '/' (joinPaths text (pathText names)) = front ++ names ∧
      front.filter leadsOn = route text := by
  have hp := pieces_pathText hn h
  -- An empty text has one piece, which is empty and leads nowhere.
  have hz : (Text.pieces '/' "").filter leadsOn = [] := rfl
  rcases joinPaths_cases hn h text with ⟨rfl, hj⟩ | ⟨-, front, ht, hj⟩
  · exact ⟨[], by rw [hj, hp]; rfl, hz.symm⟩
  · refine ⟨Text.pieces '/' front, by rw [hj, Text.pieces_append, hp], ?_⟩
    rcases ht with rfl | rfl
    · rfl
    · have hf := Text.pieces_append '/' front ""
      rw [String.append_empty] at hf
      rw [route, hf, List.filter_append, hz, List.append_nil]

/-- A path that goes on with plain names ends with one. -/
theorem endsPlain_joinPaths (text : String) : EndsPlain (joinPaths text (pathText names)) := by
  obtain ⟨front, hp, -⟩ := pieces_joinPaths hn h text
  obtain ⟨before, last, hl⟩ := (List.eq_nil_or_concat' names).resolve_left hn
  refine ⟨front ++ before, last, ?_, h last (by simp [hl])⟩
  rw [hp, List.append_assoc, ← hl]

/-- A path that goes on with plain names leads on by them. -/
theorem route_joinPaths (text : String) :
    route (joinPaths text (pathText names)) = route text ++ names := by
  obtain ⟨front, hp, hf⟩ := pieces_joinPaths hn h text
  have hl : names.filter leadsOn = names :=
    List.filter_eq_self.mpr fun name hm ↦ (h name hm).leadsOn
  rw [route, hp, List.filter_append, hf, hl]

/-- A path that goes on with plain names leads to the place that they tell from the first one. -/
theorem ofText_joinPaths (text : String) :
    ofText (joinPaths text (pathText names)) = ofText text ++ names := by
  rw [ofText, start_joinPaths hn h, route_joinPaths hn h, ending_append, ending_plain h]
  rfl

/-- A path that goes on with plain names leads through the places of the first one and those below
its end. -/
theorem mem_way_joinPaths {text : String} {q : FilePath} :
    q ∈ way (joinPaths text (pathText names)) ↔
      q ∈ way text ∨ ∃ first, first ≠ [] ∧ first <+: names ∧ q = ofText text ++ first := by
  rw [way, start_joinPaths hn h, route_joinPaths hn h, passed_append, List.mem_append,
    mem_passed_plain h]
  rfl

/-- If a path that goes on with plain names can lead somewhere, so can the first one, unless it is
empty. -/
theorem check_of_joinPaths {text : String}
    (hc : check (joinPaths text (pathText names)) = .ok ()) (he : text ≠ "") :
    check text = .ok () := by
  have ht : ∃ more, joinPaths text (pathText names) = text ++ more := by
    rcases joinPaths_cases hn h text with ⟨ht, -⟩ | ⟨-, front, rfl | rfl, hj⟩
    · exact absurd ht he
    · exact ⟨_, by rw [hj, String.append_assoc]⟩
    · exact ⟨_, hj⟩
  obtain ⟨more, ht⟩ := ht
  exact check_of_append (ht ▸ hc) he

end Joined

end RpcForge.FilePath
