import RpcForge.Client.TypeExpr

/-!
# Models in types

A spelled type is cut into stretches: words and signs of the language, and names of models. What a
meaning refers to and what its type is made of are two recursions that visit different parts; every
name of a model in a spelled type is among those that the meaning refers to.
-/

namespace RpcForge

/-- A stretch of a type as it is spelled. -/
inductive Piece where
  /-- Words and signs of the language. -/
  | fixed (text : String)
  /-- The name of a model. -/
  | model (name : String)
deriving DecidableEq, Repr

namespace Piece

/-- The text of a stretch. -/
def text : Piece → String
  | .fixed text => text
  | .model name => name

/-- The text of stretches. -/
def textOf (pieces : List Piece) : String :=
  String.join (pieces.map text)

@[simp] theorem textOf_nil : textOf [] = "" := String.join_nil

@[simp] theorem textOf_cons (piece : Piece) (pieces : List Piece) :
    textOf (piece :: pieces) = piece.text ++ textOf pieces := by
  rw [textOf, List.map_cons, String.join_cons, textOf]

@[simp] theorem textOf_append (before after : List Piece) :
    textOf (before ++ after) = textOf before ++ textOf after := by
  rw [textOf, List.map_append, String.join_append, textOf, textOf]

/-- Words and signs between lists of stretches stand between their texts. -/
@[simp] theorem textOf_intercalate (separator : String) (lists : List (List Piece)) :
    textOf ([.fixed separator].intercalate lists) = separator.intercalate (lists.map textOf) := by
  induction lists with
  | nil => simp
  | cons pieces lists ih =>
    cases lists with
    | nil => simp
    | cons next lists =>
      rw [List.intercalate_cons_cons, textOf_append, textOf_append, ih]
      simp only [List.map_cons, String.intercalate_cons_cons, textOf_cons, textOf_nil, text,
        String.append_empty]

/-- A model between lists of stretches is in one of them. -/
private theorem model_mem_intercalate {separator name : String} {lists : List (List Piece)}
    (h : .model name ∈ [Piece.fixed separator].intercalate lists) :
    ∃ pieces ∈ lists, .model name ∈ pieces := by
  induction lists with
  | nil => simp at h
  | cons pieces lists ih =>
    cases lists with
    | nil => exact ⟨pieces, by simp, by simpa using h⟩
    | cons next lists =>
      rw [List.intercalate_cons_cons, List.mem_append, List.mem_append] at h
      rcases h with (h | h) | h
      · exact ⟨pieces, by simp, h⟩
      · simp at h
      · obtain ⟨other, ho, h⟩ := ih h
        exact ⟨other, List.mem_cons_of_mem _ ho, h⟩

end Piece

namespace TypeExpr

open Piece

/-! ## Stretches of a type -/

mutual

/-- The stretches of a type as it is spelled in Python. -/
def pythonPieces : TypeExpr → List Piece
  | .word text => [.fixed text]
  | .literal v => [.fixed ("Literal[" ++ literalText v ++ "]")]
  | .model name => [.model name]
  | .tuple [] => [.fixed "tuple[()]"]
  | .tuple (member :: members) =>
    .fixed "tuple[" :: [.fixed ", "].intercalate (pythonPiecesAll (member :: members)) ++
      [.fixed "]"]
  | .set item => .fixed "set[" :: pythonPieces item ++ [.fixed "]"]
  | .list item => .fixed "list[" :: pythonPieces item ++ [.fixed "]"]
  | .map value => .fixed "dict[str, " :: pythonPieces value ++ [.fixed "]"]
  | .union members =>
    .fixed "Union[" :: [.fixed ", "].intercalate (pythonPiecesAll members) ++ [.fixed "]"]
  | .nullable inner => .fixed "Optional[" :: pythonPieces inner ++ [.fixed "]"]

/-- The stretches of types as they are spelled in Python. -/
def pythonPiecesAll : List TypeExpr → List (List Piece)
  | [] => []
  | member :: members => pythonPieces member :: pythonPiecesAll members

end

/-- The stretches of a list of items in TypeScript. -/
def typeScriptListPieces (item : List Piece) : List Piece :=
  if Text.hasChar (textOf item) '|' then .fixed "Array<" :: item ++ [.fixed ">"]
  else item ++ [.fixed "[]"]

/-- The stretches of values under text keys in TypeScript. -/
def typeScriptMapPieces (value : List Piece) : List Piece :=
  if textOf value = anyWord .typeScript then [.fixed "object"]
  else .fixed "Record<string, " :: value ++ [.fixed ">"]

mutual

/-- The stretches of a type as it is spelled in TypeScript. -/
def typeScriptPieces : TypeExpr → List Piece
  | .word text => [.fixed text]
  | .literal v => [.fixed (literalText v)]
  | .model name => [.model name]
  | .tuple members =>
    .fixed "[" :: [.fixed ", "].intercalate (typeScriptPiecesAll members) ++ [.fixed "]"]
  | .set item => .fixed "Set<" :: typeScriptPieces item ++ [.fixed ">"]
  | .list item => typeScriptListPieces (typeScriptPieces item)
  | .map value => typeScriptMapPieces (typeScriptPieces value)
  | .union members => [.fixed " | "].intercalate (typeScriptPiecesAll members)
  | .nullable inner => typeScriptPieces inner ++ [.fixed " | null"]

/-- The stretches of types as they are spelled in TypeScript. -/
def typeScriptPiecesAll : List TypeExpr → List (List Piece)
  | [] => []
  | member :: members => typeScriptPieces member :: typeScriptPiecesAll members

end

/-- The stretches of a type as it is spelled in a target language. -/
def pieces : Language → TypeExpr → List Piece
  | .python => pythonPieces
  | .typeScript => typeScriptPieces

mutual

/-- The stretches of a type in Python are the whole of it. -/
private theorem textOf_pythonPieces : ∀ t, textOf (pythonPieces t) = python t
  | .word _ => by simp [pythonPieces, python, text]
  | .literal _ => by simp [pythonPieces, python, text]
  | .model _ => by simp [pythonPieces, python, text]
  | .tuple [] => by simp [pythonPieces, python, text]
  | .tuple (member :: members) => by
    simp [pythonPieces, python, text, map_textOf_pythonPiecesAll, String.append_assoc]
  | .set item => by
    simp [pythonPieces, python, text, textOf_pythonPieces item, String.append_assoc]
  | .list item => by
    simp [pythonPieces, python, text, textOf_pythonPieces item, String.append_assoc]
  | .map value => by
    simp [pythonPieces, python, text, textOf_pythonPieces value, String.append_assoc]
  | .union members => by
    simp [pythonPieces, python, text, map_textOf_pythonPiecesAll, String.append_assoc]
  | .nullable inner => by
    simp [pythonPieces, python, text, textOf_pythonPieces inner, String.append_assoc]

/-- The stretches of types in Python are the whole of each. -/
private theorem map_textOf_pythonPiecesAll : ∀ ts, (pythonPiecesAll ts).map textOf = pythonAll ts
  | [] => rfl
  | t :: ts => by
    rw [pythonPiecesAll, pythonAll, List.map_cons, textOf_pythonPieces t,
      map_textOf_pythonPiecesAll ts]

end

mutual

/-- The stretches of a type in TypeScript are the whole of it. -/
private theorem textOf_typeScriptPieces : ∀ t, textOf (typeScriptPieces t) = typeScript t
  | .word _ => by simp [typeScriptPieces, typeScript, text]
  | .literal _ => by simp [typeScriptPieces, typeScript, text]
  | .model _ => by simp [typeScriptPieces, typeScript, text]
  | .tuple members => by
    simp [typeScriptPieces, typeScript, text, map_textOf_typeScriptPiecesAll, String.append_assoc]
  | .set item => by
    simp [typeScriptPieces, typeScript, text, textOf_typeScriptPieces item, String.append_assoc]
  | .list item => by
    rw [typeScriptPieces, typeScript, typeScriptListPieces, typeScriptList,
      textOf_typeScriptPieces item]
    split
    · simp [text, textOf_typeScriptPieces item, String.append_assoc]
    · simp [text, textOf_typeScriptPieces item]
  | .map value => by
    rw [typeScriptPieces, typeScript, typeScriptMapPieces, typeScriptMap,
      textOf_typeScriptPieces value]
    split
    · simp [text]
    · simp [text, textOf_typeScriptPieces value, String.append_assoc]
  | .union members => by
    simp [typeScriptPieces, typeScript, map_textOf_typeScriptPiecesAll]
  | .nullable inner => by
    simp [typeScriptPieces, typeScript, text, textOf_typeScriptPieces inner]

/-- The stretches of types in TypeScript are the whole of each. -/
private theorem map_textOf_typeScriptPiecesAll :
    ∀ ts, (typeScriptPiecesAll ts).map textOf = typeScriptAll ts
  | [] => rfl
  | t :: ts => by
    rw [typeScriptPiecesAll, typeScriptAll, List.map_cons, textOf_typeScriptPieces t,
      map_textOf_typeScriptPiecesAll ts]

end

/-- A spelled type consists of its stretches. -/
theorem textOf_pieces (l : Language) (t : TypeExpr) : textOf (pieces l t) = spell l t := by
  cases l with
  | python => exact textOf_pythonPieces t
  | typeScript => exact textOf_typeScriptPieces t

/-! ## Models in a type -/

mutual

/-- The names of the models in a type, in order and with repetitions. -/
def mentions : TypeExpr → List String
  | .word _ => []
  | .literal _ => []
  | .model name => [name]
  | .tuple members => mentionsAll members
  | .set item => mentions item
  | .list item => mentions item
  | .map value => mentions value
  | .union members => mentionsAll members
  | .nullable inner => mentions inner

/-- The names of the models in types. -/
def mentionsAll : List TypeExpr → List String
  | [] => []
  | member :: members => mentions member ++ mentionsAll members

end

/-- The models in types are those in each of them. -/
private theorem mem_mentionsAll_iff {name : String} {ts : List TypeExpr} :
    name ∈ mentionsAll ts ↔ ∃ t ∈ ts, name ∈ mentions t := by
  induction ts with
  | nil => simp [mentionsAll]
  | cons t ts ih => simp [mentionsAll, ih]

mutual

/-- A model that Python spells is in the type. -/
private theorem mem_mentions_of_pythonPieces {name : String} :
    ∀ t, .model name ∈ pythonPieces t → name ∈ mentions t
  | .word _, h => by simp [pythonPieces] at h
  | .literal _, h => by simp [pythonPieces] at h
  | .model _, h => by simpa [pythonPieces, mentions] using h
  | .tuple [], h => by simp [pythonPieces] at h
  | .tuple (member :: members), h => by
    have hi : .model name ∈
        [Piece.fixed ", "].intercalate (pythonPiecesAll (member :: members)) := by
      simpa [pythonPieces] using h
    exact mem_mentionsAll_of_pythonPieces _ (model_mem_intercalate hi)
  | .set item, h => mem_mentions_of_pythonPieces item (by simpa [pythonPieces] using h)
  | .list item, h => mem_mentions_of_pythonPieces item (by simpa [pythonPieces] using h)
  | .map value, h => mem_mentions_of_pythonPieces value (by simpa [pythonPieces] using h)
  | .union members, h => by
    have hi : .model name ∈ [Piece.fixed ", "].intercalate (pythonPiecesAll members) := by
      simpa [pythonPieces] using h
    exact mem_mentionsAll_of_pythonPieces _ (model_mem_intercalate hi)
  | .nullable inner, h => mem_mentions_of_pythonPieces inner (by simpa [pythonPieces] using h)

/-- A model that Python spells in one of several types is in them. -/
private theorem mem_mentionsAll_of_pythonPieces {name : String} :
    ∀ ts, (∃ ps ∈ pythonPiecesAll ts, .model name ∈ ps) → name ∈ mentionsAll ts
  | [], h => by simp [pythonPiecesAll] at h
  | t :: ts, h => by
    simp only [pythonPiecesAll, List.mem_cons, exists_eq_or_imp] at h
    rw [mentionsAll, List.mem_append]
    exact h.imp (mem_mentions_of_pythonPieces t) (mem_mentionsAll_of_pythonPieces ts)

end

mutual

/-- A model that TypeScript spells is in the type. -/
private theorem mem_mentions_of_typeScriptPieces {name : String} :
    ∀ t, .model name ∈ typeScriptPieces t → name ∈ mentions t
  | .word _, h => by simp [typeScriptPieces] at h
  | .literal _, h => by simp [typeScriptPieces] at h
  | .model _, h => by simpa [typeScriptPieces, mentions] using h
  | .tuple members, h => by
    have hi : .model name ∈ [Piece.fixed ", "].intercalate (typeScriptPiecesAll members) := by
      simpa [typeScriptPieces] using h
    exact mem_mentionsAll_of_typeScriptPieces _ (model_mem_intercalate hi)
  | .set item, h => mem_mentions_of_typeScriptPieces item (by simpa [typeScriptPieces] using h)
  | .list item, h => by
    refine mem_mentions_of_typeScriptPieces item ?_
    rw [typeScriptPieces, typeScriptListPieces] at h
    split at h
    · simpa using h
    · simpa using h
  | .map value, h => by
    refine mem_mentions_of_typeScriptPieces value ?_
    rw [typeScriptPieces, typeScriptMapPieces] at h
    split at h
    · simp at h
    · simpa using h
  | .union members, h => mem_mentionsAll_of_typeScriptPieces _ (model_mem_intercalate h)
  | .nullable inner, h =>
    mem_mentions_of_typeScriptPieces inner (by simpa [typeScriptPieces] using h)

/-- A model that TypeScript spells in one of several types is in them. -/
private theorem mem_mentionsAll_of_typeScriptPieces {name : String} :
    ∀ ts, (∃ ps ∈ typeScriptPiecesAll ts, .model name ∈ ps) → name ∈ mentionsAll ts
  | [], h => by simp [typeScriptPiecesAll] at h
  | t :: ts, h => by
    simp only [typeScriptPiecesAll, List.mem_cons, exists_eq_or_imp] at h
    rw [mentionsAll, List.mem_append]
    exact h.imp (mem_mentions_of_typeScriptPieces t) (mem_mentionsAll_of_typeScriptPieces ts)

end

/-- A model that is spelled is in the type. -/
theorem mem_mentions_of_pieces {l : Language} {t : TypeExpr} {name : String}
    (h : .model name ∈ pieces l t) : name ∈ mentions t := by
  cases l with
  | python => exact mem_mentions_of_pythonPieces t h
  | typeScript => exact mem_mentions_of_typeScriptPieces t h

/-! ## Models in the type of a meaning -/

variable {l : Language} {name : String}

/-- No members of a union are made up. -/
private theorem dedupe_sublist (l : Language) (seen : List String) (ts : List TypeExpr) :
    (dedupe l seen ts).Sublist ts := by
  induction ts generalizing seen with
  | nil => exact .slnil
  | cons t ts ih =>
    rw [dedupe]
    split
    · exact (ih seen).cons t
    · exact (ih _).cons_cons t

/-- A model in one of several types is in a longer list of them. -/
private theorem mem_mentionsAll_of_sublist {ts us : List TypeExpr} (h : ts.Sublist us)
    (hn : name ∈ mentionsAll ts) : name ∈ mentionsAll us := by
  rw [mem_mentionsAll_iff] at hn ⊢
  obtain ⟨t, ht, hn⟩ := hn
  exact ⟨t, h.subset ht, hn⟩

/-- A model in a union is in one of its members. -/
private theorem mem_mentionsAll_of_ofUnion {members : List (Meaning × TypeExpr)}
    (h : name ∈ mentions (ofUnion l members)) : name ∈ mentionsAll (members.map Prod.snd) := by
  have hs : (dedupe l [] ((members.filter (!isNullMember l ·)).map Prod.snd)).Sublist
      (members.map Prod.snd) :=
    (dedupe_sublist l [] _).trans (List.filter_sublist.map Prod.snd)
  apply mem_mentionsAll_of_sublist hs
  simp only [ofUnion] at h
  split at h
  · simp [mentions] at h
  · simp [mentions] at h
  · next t he _ => simpa [he, mentionsAll] using h
  · next t he _ => simpa [he, mentionsAll, mentions] using h
  · simpa [mentions] using h
  · simpa [mentions] using h

/-- The types of meanings are the types of each. -/
theorem ofMeanings_eq_map (l : Language) (ms : List Meaning) :
    ofMeanings l ms = ms.map (ofMeaning l) := by
  induction ms with
  | nil => rfl
  | cons m ms ih => rw [ofMeanings, ih, List.map_cons]

/-- The types of the members of a union are those of their meanings. -/
private theorem map_snd_zip_ofMeanings (l : Language) (ms : List Meaning) :
    (ms.zip (ofMeanings l ms)).map Prod.snd = ofMeanings l ms :=
  List.map_snd_zip (by simp [ofMeanings_eq_map])

mutual

/-- A model in the type of a meaning is one that the meaning refers to. -/
theorem mem_references_of_mentions : ∀ m, name ∈ mentions (ofMeaning l m) → name ∈ m.references
  | .absent, h => by simp [ofMeaning, mentions] at h
  | .flag _, h => by simp [ofMeaning, mentions] at h
  | .const v, h => by
    rw [ofMeaning] at h
    cases l <;> cases v <;> simp [ofConst, mentions] at h
  | .scalar _, h => by simp [ofMeaning, mentions] at h
  | .formatted _, h => by simp [ofMeaning, mentions] at h
  | .tuple members items _, h => by
    -- what further items refer to is not spelled
    rw [ofMeaning, mentions] at h
    rw [Meaning.references, List.mem_append]
    exact .inr (mem_listReferences_of_mentions members h)
  | .list items true, h => by
    rw [ofMeaning, mentions] at h
    exact mem_optionReferences_of_mentions items h
  | .list items false, h => by
    rw [ofMeaning, mentions] at h
    exact mem_optionReferences_of_mentions items h
  | .object _ _ additional, h => by
    -- only what stands beside the properties is spelled
    rw [ofMeaning, mentions] at h
    rw [Meaning.references, List.mem_append]
    exact .inr (mem_optionReferences_of_mentions additional h)
  | .types members, h => by
    rw [ofMeaning] at h
    have hm := mem_mentionsAll_of_ofUnion h
    rw [map_snd_zip_ofMeanings] at hm
    exact mem_listReferences_of_mentions members hm
  | .union _ branches, h => by
    rw [ofMeaning] at h
    have hm := mem_mentionsAll_of_ofUnion h
    rw [map_snd_zip_ofMeanings] at hm
    exact mem_listReferences_of_mentions branches hm
  | .ref _, h => by simpa [ofMeaning, mentions, Meaning.references] using h

/-- A model in the type of a part is one that the part refers to. -/
private theorem mem_optionReferences_of_mentions :
    ∀ part, name ∈ mentions (ofItem l part) → name ∈ Meaning.optionReferences part
  | none, h => by simp [ofItem, mentions] at h
  | some m, h => mem_references_of_mentions m h

/-- A model in one of several types is one that the meanings refer to. -/
private theorem mem_listReferences_of_mentions :
    ∀ ms, name ∈ mentionsAll (ofMeanings l ms) → name ∈ Meaning.listReferences ms
  | [], h => by simp [ofMeanings, mentionsAll] at h
  | m :: ms, h => by
    rw [ofMeanings, mentionsAll, List.mem_append] at h
    rw [Meaning.listReferences, List.mem_append]
    exact h.imp (mem_references_of_mentions m) (mem_listReferences_of_mentions ms)

end

end TypeExpr

end RpcForge
