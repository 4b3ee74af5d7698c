import RpcForge.Proofs.Client.LiteralSpelling
import RpcForge.Proofs.Client.Plan
import RpcForge.Proofs.Client.TypeUnambiguous
import RpcForge.Proofs.Naming.Identifier
import RpcForge.Proofs.Package.ModelCode

/-!
# Members of enumerations

An enumeration has a member for each of its values, under names that differ. The names are
identifiers but for one kind of number: in names minus signs and points are spelled out, and plus
signs are not, which stand in the powers of ten of large doubles.
-/

namespace RpcForge

open RpcForge.Json

/-! ## Plus signs in numbers -/

namespace Json.Number

/-- The number is a double from `10 ^ 16` on, which is written with a power of ten. -/
def IsLarge : Number → Prop
  | .int _ => False
  | .double d => 16 ≤ d.shortest.exponent

instance (n : Number) : Decidable n.IsLarge :=
  match n with
  | .int _ => inferInstanceAs (Decidable False)
  | .double d => inferInstanceAs (Decidable (16 ≤ d.shortest.exponent))

private theorem plus_not_mem_of_isDigits {text : List Char} (h : TypeGrammar.IsDigits text) :
    '+' ∉ text :=
  fun hm ↦ absurd (h.2 '+' hm) (by decide)

private theorem plus_not_mem_sign (p : Prop) [Decidable p] : '+' ∉ if p then ['-'] else [] := by
  split <;> simp

private theorem plus_not_mem_positional {digits : List Char} (hd : TypeGrammar.IsDigits digits)
    (exponent : Int) : '+' ∉ positional digits exponent := by
  have hn := plus_not_mem_of_isDigits hd
  rw [positional]
  split
  · simp [hn]
  · have ht : '+' ∉ digits.take (exponent.toNat + 1) := fun hm ↦ hn (List.mem_of_mem_take hm)
    have hf : '+' ∉ if (digits.drop (exponent.toNat + 1)).isEmpty then ['0']
        else digits.drop (exponent.toNat + 1) := by
      split
      · decide
      · exact fun hm ↦ hn (List.mem_of_mem_drop hm)
    simp only [List.mem_append, List.mem_cons, List.mem_replicate, ht, hf]
    simp

private theorem plus_mem_scientific_iff {digits : List Char} (hd : TypeGrammar.IsDigits digits)
    (exponent : Int) : '+' ∈ scientific digits exponent ↔ 0 ≤ exponent := by
  have hn := plus_not_mem_of_isDigits hd
  have ht : '+' ∉ digits.take 1 := fun hm ↦ hn (List.mem_of_mem_take hm)
  have hf : '+' ∉ if digits.length ≤ 1 then [] else '.' :: digits.drop 1 := by
    split
    · exact List.not_mem_nil
    · exact List.not_mem_cons_of_ne_of_not_mem (by decide) fun hm ↦ hn (List.mem_of_mem_drop hm)
  have he := plus_not_mem_of_isDigits (TypeGrammar.isDigits_toDigits exponent.natAbs)
  simp only [scientific, List.mem_append, ht, hf, he, List.mem_cons, List.not_mem_nil]
  by_cases hs : exponent < 0
  · simp [hs]
  · simp [hs, Int.not_lt.mp hs]

/-- Only large doubles are written with a plus sign. -/
private theorem plus_mem_render_iff (n : Number) : '+' ∈ n.render.toList ↔ n.IsLarge := by
  cases n with
  | int n =>
    rw [render, String.toList_ofList, renderInt, List.mem_append]
    exact iff_of_false (not_or.mpr ⟨plus_not_mem_sign _,
      plus_not_mem_of_isDigits (TypeGrammar.isDigits_toDigits _)⟩) id
  | double d =>
    have hd := TypeGrammar.isDigits_toDigits d.shortest.digits
    rw [render, String.toList_ofList, renderDouble, List.mem_append,
      or_iff_right (plus_not_mem_sign _), IsLarge]
    split
    · next hp =>
      refine iff_of_false (plus_not_mem_positional hd _) ?_
      simp only [isPositional, Bool.and_eq_true, decide_eq_true_eq] at hp
      omega
    · next hp =>
      rw [plus_mem_scientific_iff hd]
      simp only [isPositional, Bool.and_eq_true, decide_eq_true_eq] at hp
      omega

end Json.Number

/-! ## Names for values -/

/-- The value is a number that is written with a plus sign. -/
def Json.Value.IsLarge : Value → Prop
  | .number n => n.IsLarge
  | _ => False

instance (v : Value) : Decidable v.IsLarge :=
  match v with
  | .number n => inferInstanceAs (Decidable n.IsLarge)
  | .null | .bool _ | .string _ | .array _ | .object _ => inferInstanceAs (Decidable False)

namespace Naming

/-- Only plus signs remain in a numeral that may not stand in a name. -/
private theorem forall_mem_numberChars_iff {text : List Char} (h : TypeGrammar.IsNumeral text) :
    (∀ d ∈ text.flatMap numberChars, d.isAlphanum = true ∨ d = '_') ↔ '+' ∉ text := by
  constructor
  · intro ha hp
    have hm : '+' ∈ text.flatMap numberChars := List.mem_flatMap.mpr ⟨'+', hp, by decide⟩
    exact absurd (ha '+' hm) (by decide)
  · intro hp d hd
    obtain ⟨c, hc, hd⟩ := List.mem_flatMap.mp hd
    rcases h.isDigit_or_mem c hc with hk | hk
    · have hne : c ≠ '-' ∧ c ≠ '.' := by constructor <;> rintro rfl <;> revert hk <;> decide
      rw [numberChars, if_neg hne.1, if_neg hne.2, List.mem_singleton] at hd
      exact .inl (by simp [Char.isAlphanum, hd, hk])
    · simp only [List.mem_cons, List.not_mem_nil, or_false] at hk
      have hs (hn : (numberChars c).all isNameChar = true) : d.isAlphanum = true ∨ d = '_' :=
        (isNameChar_iff d).mp (List.all_eq_true.mp hn d hd)
      rcases hk with rfl | rfl | rfl | rfl
      · exact hs (by decide)
      · exact hs (by decide)
      · exact hs (by decide)
      · exact absurd hc hp

private theorem enumMember_ne_empty (v : Value) : enumMember v ≠ "" := by
  cases v with
  | string s =>
    intro he
    obtain ⟨c, cs, hs, -⟩ := isIdentifier_cased Text.joinShouty s
    rw [show cased Text.joinShouty s = "" from he] at hs
    cases hs
  | number n => simp [enumMember]
  | bool b => cases b <;> decide
  | null => decide
  | array vs => exact show "VALUE" ≠ "" by decide
  | object members => exact show "VALUE" ≠ "" by decide

/-- The name for a value is an identifier unless the value is a large double. -/
private theorem isIdentifier_enumMember_iff (v : Value) :
    IsIdentifier (enumMember v) ↔ ¬v.IsLarge := by
  cases v with
  | string s => exact iff_of_true (isIdentifier_cased _ _) id
  | number n =>
    rw [Value.IsLarge, ← n.plus_mem_render_iff,
      ← forall_mem_numberChars_iff (TypeGrammar.isNumeral_render n), enumMember]
    constructor
    · intro h d hd
      exact h.forall_mem d (by simp [hd])
    · intro h
      have hn : IsIdentifier "NUMBER_" := by decide
      exact hn.append (by simpa using h)
  | bool b => cases b <;> exact iff_of_true (by decide) id
  | null => exact iff_of_true (by decide) id
  | array vs => exact iff_of_true (show IsIdentifier "VALUE" by decide) id
  | object members => exact iff_of_true (show IsIdentifier "VALUE" by decide) id

end Naming

/-! ## Members -/

/-- Members, names with what is written for values, are those of an enumeration of values. -/
structure Enumerates (spelled : Value → String → Prop) (values : List Value)
    (members : List (String × String)) : Prop where
  /-- There is one member for each value, in order, which is named for the value and bound to what
  is written for it. -/
  each : List.Forall₂ (fun v member ↦
    Naming.MadeFrom (Naming.enumMember v) member.1 ∧ spelled v member.2) values members
  /-- The names differ. -/
  distinct : (members.map Prod.fst).Nodup
  /-- A name is an identifier unless the value is a large double. -/
  legal : List.Forall₂ (fun v member ↦ Naming.IsIdentifier member.1 ↔ ¬v.IsLarge) values members

private theorem enumerates_zip {spelled : Value → String → Prop} {values : List Value}
    {texts : List String} (h : List.Forall₂ spelled values texts) :
    Enumerates spelled values ((Naming.unique (values.map Naming.enumMember)).zip texts) := by
  have he := forall₂_zip_right (Naming.madeFrom_unique_map Naming.enumMember values) h
  refine ⟨he, ?_, he.imp fun v member hm ↦ ?_⟩
  · rw [List.map_fst_zip (by simp [h.length_eq])]
    exact Naming.nodup_unique _
  · rw [hm.1.isIdentifier_iff (Naming.enumMember_ne_empty v), Naming.isIdentifier_enumMember_iff]

/-- All names are identifiers exactly if no value is a large double. -/
private theorem Enumerates.forall_isIdentifier_iff {spelled : Value → String → Prop}
    {values : List Value} {members : List (String × String)}
    (h : Enumerates spelled values members) :
    (∀ member ∈ members, Naming.IsIdentifier member.1) ↔ ∀ v ∈ values, ¬v.IsLarge := by
  have hl := h.legal
  clear h
  induction hl with
  | nil => simp
  | cons hm _ ih =>
    rw [List.forall_mem_cons, List.forall_mem_cons]
    exact and_congr hm ih

/-- Whether a value has no parts. -/
def Json.Value.isScalar : Value → Bool
  | .array _ => false
  | .object _ => false
  | _ => true

namespace PythonModels

private theorem isSome_literal? (v : Value) : (literal? v).isSome = v.isScalar := by
  cases v with
  | bool b => cases b <;> rfl
  | _ => rfl

/-- Values without parts are written as they are, each for itself. -/
private theorem forall₂_literals (values : List Value) :
    List.Forall₂ (fun v text ↦ literal? v = some text) (values.filter Value.isScalar)
      (values.filterMap literal?) := by
  induction values with
  | nil => exact .nil
  | cons v values ih =>
    rw [List.filter_cons, ← isSome_literal? v, List.filterMap_cons]
    cases hl : literal? v with
    | none => exact ih
    | some text => exact .cons hl ih

private theorem map_membersOf (values : List Value) :
    (membersOf values).map (fun member ↦ (member.name, member.literal)) =
      (Naming.unique ((values.filter Value.isScalar).map Naming.enumMember)).zip
        (values.filterMap literal?) := by
  have hv : (values.filterMap fun v ↦ (literal? v).map fun text ↦ (v, text)).map Prod.fst =
      values.filter Value.isScalar := by
    rw [List.map_filterMap, ← List.filterMap_eq_filter]
    congr
    funext v
    rw [Option.guard, ← isSome_literal? v]
    cases literal? v <;> rfl
  have ht : (values.filterMap fun v ↦ (literal? v).map fun text ↦ (v, text)).map Prod.snd =
      values.filterMap literal? := by
    rw [List.map_filterMap]
    congr
    funext v
    cases literal? v <;> rfl
  rw [membersOf, ← hv, ← ht, List.map_zipWith, List.map_map, List.zip, List.zipWith_map_right]
  rfl

/-- In Python there are members for the values without parts. -/
private theorem enumerates_membersOf (values : List Value) :
    Enumerates (fun v text ↦ literal? v = some text) (values.filter Value.isScalar)
      ((membersOf values).map fun member ↦ (member.name, member.literal)) := by
  rw [map_membersOf]
  exact enumerates_zip (forall₂_literals values)

end PythonModels

namespace TypeScriptModels

/-- In TypeScript there are members for all values. -/
private theorem enumerates_membersOf (values : List Value) :
    Enumerates (fun v text ↦ v.compact = text) values (membersOf values) :=
  enumerates_zip (List.forall₂_map_right_iff.mpr (List.forall₂_same.mpr fun _ _ ↦ rfl))

end TypeScriptModels

/-! ## Enumerations as they are written -/

namespace Package

variable {plan : Plan} {model : Model}

/-- The block of an enumeration in Python, given its members. -/
def pythonEnum (model : Model) (members : List (String × String)) : String × List Code :=
  ("class " ++ model.name ++ "(Enum)",
    Comment.docstring (model.description.getD (model.displayTitle ++ " options.")) ++
      (if members.isEmpty then [] else [.blank]) ++
      members.map fun member ↦ .line (member.1 ++ " = " ++ member.2))

/-- The block of an enumeration in TypeScript, given its members. -/
def typeScriptEnum (model : Model) (members : List (String × String)) : String × List Code :=
  ("export enum " ++ model.name,
    members.map fun member ↦ .line (member.1 ++ " = " ++ member.2 ++ ","))

private theorem pythonEnum_mem_blocks (hm : model ∈ plan.interface.models.toList)
    {values : List Value} (ho : model.options = some values) :
    pythonEnum model ((PythonModels.membersOf values).map fun member ↦
      (member.name, member.literal)) ∈ Code.blocks (modelCode .python plan) := by
  have hk : model.kind = .enumeration := by rw [Model.kind, ho]
  have hb : (PythonModels.enumOf model).block = pythonEnum model
      ((PythonModels.membersOf values).map fun member ↦ (member.name, member.literal)) := by
    rw [PythonModels.enumOf, ho, PythonModels.EnumClass.block, pythonEnum, List.isEmpty_map,
      List.map_map]
    rfl
  rw [← hb, modelCode, PythonModels.blocks_moduleCode]
  exact List.mem_append_left _ (List.mem_map_of_mem (List.mem_map_of_mem
    (List.mem_filter.mpr ⟨hm, by simp [hk]⟩)))

private theorem typeScriptEnum_mem_blocks (hm : model ∈ plan.interface.models.toList)
    {values : List Value} (ho : model.options = some values)
    (hv : values.all TypeScriptModels.isMemberValue = true) :
    typeScriptEnum model (TypeScriptModels.membersOf values) ∈
      Code.blocks (modelCode .typeScript plan) := by
  have hk : model.kind = .enumeration := by rw [Model.kind, ho]
  refine TypeScriptModels.mem_blocks_of_mem_models hm ?_
  rw [TypeScriptModels.declarationOf, hk, ho]
  dsimp only
  rw [Option.getD_some, TypeScriptModels.enumOf, if_pos hv]
  simp [TypeScriptModels.declarationCode, TypeScriptModels.enumCode, typeScriptEnum]

/-- Enumerations have one member for each value that has no parts, in order, bound to what is
written for the value, under names that differ; in TypeScript there are only enumerations of texts
and numbers. The names are identifiers exactly where no value is a large double. -/
theorem enumerations_legal_iff (values : List Value) :
    (∀ v, Naming.IsIdentifier (Naming.enumMember v) ↔ ¬v.IsLarge) ∧
      ∃ python typeScript,
        Enumerates (fun v text ↦ PythonModels.literal? v = some text)
          (values.filter Value.isScalar) python ∧
        Enumerates (fun v text ↦ v.compact = text) values typeScript ∧
        ∀ (plan : Plan) (model : Model), model ∈ plan.interface.models.toList →
          model.options = some values →
          pythonEnum model python ∈ Code.blocks (modelCode .python plan) ∧
          (values.all TypeScriptModels.isMemberValue = true →
            typeScriptEnum model typeScript ∈ Code.blocks (modelCode .typeScript plan)) :=
  ⟨Naming.isIdentifier_enumMember_iff, _, _, PythonModels.enumerates_membersOf values,
    TypeScriptModels.enumerates_membersOf values, fun _ _ hm ho ↦
      ⟨pythonEnum_mem_blocks hm ho, typeScriptEnum_mem_blocks hm ho⟩⟩

/-- A document with an enumeration of values. -/
def palette (values : List Value) : Document where
  openrpc := "1.3.2"
  info := { title := "Palette", version := "1" }
  methods := []
  components := some { schemas := some [("Color", { keywords := { enum := some values } })] }

/-- The values of a document with an enumeration are those of a model in its plan. -/
private theorem exists_plan_palette (values : List Value) (hv : values ≠ [])
    (accepted : ((Plan.ofDocument (palette values)).toOption.map fun _ ↦ ()) = some ()) :
    ∃ plan, Plan.ofDocument (palette values) = .ok plan ∧
      ∃ model ∈ plan.interface.models.toList, model.options = some values := by
  obtain ⟨plan, hp, hm⟩ := Plan.exists_of_accepted accepted
  refine ⟨plan, hp, Model.ofSchema "Color" { keywords := { enum := some values } }, ?_, ?_⟩
  · rw [hm]
    exact .head _
  · cases values with
    | nil => exact absurd rfl hv
    | cons v values => rfl

/-- Values of all kinds: texts that look alike in capitals, numbers with a sign and a fraction, and
`1e-07`. -/
def colors : List Value :=
  [.string "dark-blue", .string "Dark Blue", .number (.int (-3)),
    .number (.double ⟨0xbff8000000000000⟩), .number (.double ⟨0x3e7ad7f29abcaf48⟩), .bool true,
    .null, .array []]

/-- All members of an enumeration without large doubles have names that are identifiers. -/
theorem enumerations_legal_palette :
    ∃ plan, Plan.ofDocument (palette colors) = .ok plan ∧
      ∃ model ∈ plan.interface.models.toList, ∃ members,
        Enumerates (fun v text ↦ PythonModels.literal? v = some text)
          (colors.filter Value.isScalar) members ∧
        (∀ member ∈ members, Naming.IsIdentifier member.1) ∧
        pythonEnum model members ∈ Code.blocks (modelCode .python plan) := by
  obtain ⟨plan, hp, model, hm, ho⟩ := exists_plan_palette colors (by decide) (by decide +kernel)
  obtain ⟨-, members, typeScript, he, -, hb⟩ := enumerations_legal_iff colors
  exact ⟨plan, hp, model, hm, members, he, he.forall_isIdentifier_iff.mpr (by decide +kernel),
    (hb plan model hm ho).1⟩

/-- A large double is a value like any other, but its member has a name that is no identifier. -/
theorem exists_member_not_legal :
    ∃ plan, Plan.ofDocument (palette [.number (.double ⟨0x4341c37937e08000⟩)]) = .ok plan ∧
      ∃ model ∈ plan.interface.models.toList,
        pythonEnum model [("NUMBER_1e+16", "1e+16")] ∈ Code.blocks (modelCode .python plan) ∧
        typeScriptEnum model [("NUMBER_1e+16", "1e+16")] ∈
          Code.blocks (modelCode .typeScript plan) ∧
        ¬Naming.IsIdentifier "NUMBER_1e+16" := by
  obtain ⟨plan, hp, model, hm, ho⟩ :=
    exists_plan_palette [.number (.double ⟨0x4341c37937e08000⟩)] (by decide) (by decide +kernel)
  have hpy : (PythonModels.membersOf [.number (.double ⟨0x4341c37937e08000⟩)]).map
      (fun member ↦ (member.name, member.literal)) = [("NUMBER_1e+16", "1e+16")] := by
    decide +kernel
  have hts : TypeScriptModels.membersOf [.number (.double ⟨0x4341c37937e08000⟩)] =
      [("NUMBER_1e+16", "1e+16")] := by
    decide +kernel
  exact ⟨plan, hp, model, hm, hpy ▸ pythonEnum_mem_blocks hm ho,
    hts ▸ typeScriptEnum_mem_blocks hm ho rfl, by decide⟩

end Package

end RpcForge
