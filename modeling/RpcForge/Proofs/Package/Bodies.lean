import RpcForge.Proofs.Code.Lines
import RpcForge.Proofs.Package.ClientCode
import RpcForge.Proofs.Package.Docstring
import RpcForge.Proofs.Package.Fields
import RpcForge.Proofs.Package.ModelCode

/-!
# Bodies of classes and functions in Python

Every class and every function has a body. In the module with the clients all bodies have lines of
their own; in the one with the models they may be left empty if a model says nothing about itself.
-/

namespace RpcForge

open RpcForge.Text

namespace Comment

open Code

private theorem all_isPlain_docstring (text : String) : (docstring text).all isPlain = true := by
  unfold docstring
  split <;> simp [isPlain]

@[simp] theorem allLinewise_docstring (text : String) : allLinewise (docstring text) = true := by
  unfold docstring
  split
  · rfl
  · rfl
  · next first rest _ _ => simpa using allLinewise_map_line id rest

@[simp] theorem allFilled_docstring (text : String) : allFilled (docstring text) = true :=
  allFilled_of_isPlain (all_isPlain_docstring text)

private theorem docstring_eq_nil_iff (text : String) :
    docstring text = [] ↔ isBlankText text = true := by
  have hl : docstring text = [] ↔ docstringLines text = [] := by
    unfold docstring
    split <;> simp_all
  rw [hl, docstringLines_eq, List.map_eq_nil_iff]
  refine ⟨fun h ↦ ?_, trimmedLines_eq_nil⟩
  by_contra hb
  rw [Bool.not_eq_true] at hb
  obtain ⟨ls, he, hne, -⟩ := exists_trimmedLines_eq hb
  exact hne (List.map_eq_nil_iff.mp (he ▸ h))

/-- Something is written for a docstring exactly if the text is not blank. -/
@[simp] theorem anyHasText_docstring (text : String) :
    anyHasText (docstring text) = !isBlankText text := by
  have hq (rest : String) : isBlankText (tripleQuote ++ rest) = false := by
    rw [isBlankText_append]
    rfl
  have he : isBlankText text = (docstring text).isEmpty := by
    rw [Bool.eq_iff_iff, List.isEmpty_iff, docstring_eq_nil_iff]
  rw [he]
  unfold docstring
  split <;> simp [hasText, hq, String.append_assoc]

end Comment

namespace PythonClient

open Code

private theorem allLinewise_moduleCode (m : Module) : allLinewise (moduleCode m) = true := by
  have hr (style : CallStyle) (call : String) (d : Def) :
      allLinewise (requestCode style call d) = true := by
    unfold requestCode
    cases d.returns <;> rfl
  have hd (style : CallStyle) (call : String) (d : Def) :
      allLinewise (defCode style call d) = true := by
    simp [defCode, hr]
  have hs (call : String) (members : List SubgroupMember) :
      allLinewise (members.map (subgroupCode call)) = true :=
    allLinewise_map_line _ members
  have hm : allLinewise (if m.hasModels then [.blank, .line "from .models import *"] else []) =
      true := by
    cases m.hasModels <;> rfl
  simp [moduleCode, importCode, tupleCode, serversCode, serializeCode, groupClassCode,
    clientClassCode, hd, hs, hm]

/-- All bodies in the module with the clients have lines of their own. -/
private theorem allFilled_moduleCode (m : Module) : allFilled (moduleCode m) = true := by
  have hr (style : CallStyle) (call : String) (d : Def) :
      allFilled (requestCode style call d) = true := by
    unfold requestCode
    cases d.returns <;> rfl
  have hp (t : String) : isBlankText ("params = " ++ t) = false := by
    rw [isBlankText_append]
    rfl
  have hd (style : CallStyle) (call : String) (d : Def) :
      allFilled (defCode style call d) = true := by
    simp [defCode, isFilled, hasText, hr, hp]
  have hs (call : String) (members : List SubgroupMember) :
      allFilled (members.map (subgroupCode call)) = true :=
    allFilled_map_line _ members
  have hm : allFilled (if m.hasModels then [.blank, .line "from .models import *"] else []) =
      true := by
    cases m.hasModels <;> rfl
  have hd1 : isBlankText "Servers listed in the API description." = false := by decide
  have hd2 : isBlankText "return to_jsonable_python(value, by_alias=True)" = false := by decide
  have hd3 : isBlankText "self._call = call" = false := by decide
  have hd4 : isBlankText "super().__init__(url, headers or \x7b\x7d)" = false := by decide
  simp [moduleCode, importCode, tupleCode, serversCode, serializeCode, groupClassCode,
    clientClassCode, isFilled, hasText, hd, hs, hm, hd1, hd2, hd3, hd4]

end PythonClient

namespace PythonModels

open Code

private theorem allLinewise_moduleCode (m : Module) : allLinewise (moduleCode m) = true := by
  have he (c : EnumClass) : allLinewise (enumCode c) = true := by
    unfold enumCode
    cases c.members.isEmpty <;> simp
  have hr (c : RecordClass) : allLinewise (recordCode c) = true := by
    unfold recordCode
    cases c.fields.isEmpty <;> cases c.fields.any (·.property.isSome) <;> simp
  have ha (aliases : List AliasDef) : allLinewise (aliasesCode aliases) = true := by
    unfold aliasesCode
    cases aliases.isEmpty <;> simp
  have hb (records : List RecordClass) : allLinewise (rebuildCode records) = true := by
    unfold rebuildCode
    cases records.isEmpty <;> simp
  simp [moduleCode, importCode, PythonClient.tupleCode, he, hr, ha, hb]

/-- What stands before the definitions. -/
def headCode (m : Module) : List Code :=
  Comment.docstring (Comment.heading m.title "models") ++ importCode ++
    PythonClient.tupleCode "__all__" m.exported

/-- The definitions and what stands behind them. -/
def definitionCode (m : Module) : List Code :=
  m.enums.flatMap enumCode ++ (m.records.flatMap recordCode ++
    (aliasesCode m.aliases ++ rebuildCode m.records))

private theorem moduleCode_eq (m : Module) : moduleCode m = headCode m ++ definitionCode m := by
  simp [moduleCode, headCode, definitionCode]

/-- There is no header before the definitions. -/
private theorem isHeader_headCode (m : Module) :
    ∀ l ∈ linesOf 0 (headCode m), l.isHeader = false := by
  have hi : importCode.all isPlain = true := by decide
  have ht : ∀ l ∈ linesOf 0 (PythonClient.tupleCode "__all__" m.exported),
      l.isHeader = false := by
    have hm : (m.exported.map fun item ↦ Code.line (quote item ++ ",")).all isPlain = true := by
      simp [isPlain]
    simp only [PythonClient.tupleCode, linesOf_cons, linesIn, linesOf_nil, List.append_nil,
      List.forall_mem_append]
    exact ⟨fun _ h ↦ (of_mem_textLines h).1, isHeader_linesOf_of_isPlain hm,
      fun _ h ↦ (of_mem_textLines h).1⟩
  rw [headCode, linesOf_append, linesOf_append, List.forall_mem_append, List.forall_mem_append]
  exact ⟨⟨isHeader_linesOf_of_isPlain (Comment.all_isPlain_docstring _),
    isHeader_linesOf_of_isPlain hi⟩, ht⟩

private theorem all_isFlat_definitionCode (m : Module) : (definitionCode m).all isFlat = true := by
  have he (c : EnumClass) : (enumCode c).all isFlat = true := by
    unfold enumCode
    cases c.members.isEmpty <;>
      simp [isFlat, isPlain, List.all_append, Comment.all_isPlain_docstring]
  have hr (c : RecordClass) : (recordCode c).all isFlat = true := by
    unfold recordCode
    cases c.fields.isEmpty <;> cases c.fields.any (·.property.isSome) <;>
      simp [isFlat, isPlain, List.all_append, Comment.all_isPlain_docstring]
  have ha (aliases : List AliasDef) : (aliasesCode aliases).all isFlat = true := by
    unfold aliasesCode
    cases aliases.isEmpty <;> simp [isFlat, isPlain]
  have hb (records : List RecordClass) : (rebuildCode records).all isFlat = true := by
    unfold rebuildCode
    cases records.isEmpty <;> simp [isFlat, isPlain]
  simp [definitionCode, List.all_flatMap, he, hr, ha, hb]

/-- Something is written in an enumeration if it is documented or has members. -/
private theorem allFilled_enumCode (c : EnumClass) :
    allFilled (enumCode c) = (!isBlankText c.doc || !c.members.isEmpty) := by
  have hm (member : Member) : isBlankText (member.name ++ " = " ++ member.literal) = false := by
    have hs : isBlankText " = " = false := by decide
    rw [isBlankText_append, isBlankText_append, hs, Bool.and_false, Bool.false_and]
  have ha : (c.members.any fun _ ↦ true) = !c.members.isEmpty := by
    cases c.members <;> rfl
  unfold enumCode
  cases he : c.members.isEmpty <;> simp [isFilled, hasText, hm, ha, he]

private theorem isBlankText_fieldText (field : Field) : isBlankText (fieldText field) = false := by
  have hs (rest : String) : isBlankText (field.name ++ (": " ++ rest)) = false := by
    have hc : isBlankText ": " = false := by decide
    rw [isBlankText_append, isBlankText_append, hc, Bool.false_and, Bool.and_false]
  unfold fieldText
  split <;> simp only [String.append_assoc, hs]

/-- Something is written in a class if it is documented or has fields. -/
private theorem allFilled_recordCode (c : RecordClass) :
    allFilled (recordCode c) = (!isBlankText c.doc || !c.fields.isEmpty) := by
  unfold recordCode
  cases hf : c.fields with
  | nil => simp [isFilled]
  | cons field fields =>
    have hc : isBlankText "model_config = ConfigDict(populate_by_name=True)" = false := by decide
    split <;> simp [isFilled, hasText, isBlankText_fieldText, hc]

/-- The headers in the module open exactly if each enumeration and each class that is not documented
has members or fields. -/
private theorem headersOpen_moduleCode_iff (m : Module) : HeadersOpen (linesOf 0 (moduleCode m)) ↔
    (∀ c ∈ m.enums, isBlankText c.doc = true → c.members ≠ []) ∧
      ∀ c ∈ m.records, isBlankText c.doc = true → c.fields ≠ [] := by
  have ha (aliases : List AliasDef) : allFilled (aliasesCode aliases) = true := by
    unfold aliasesCode
    cases aliases.isEmpty <;> simp [isFilled]
  have hb (records : List RecordClass) : allFilled (rebuildCode records) = true := by
    unfold rebuildCode
    cases records.isEmpty <;> simp [isFilled]
  rw [moduleCode_eq, linesOf_append, headersOpen_append (isHeader_headCode m),
    headersOpen_iff_allFilled 0 (all_isFlat_definitionCode m), definitionCode]
  simp only [allFilled_append, allFilled_flatMap, allFilled_enumCode, allFilled_recordCode, ha, hb,
    Bool.and_true, Bool.and_eq_true, List.all_eq_true, Bool.or_eq_true, Bool.not_eq_true',
    ← Bool.not_eq_true, List.isEmpty_iff, imp_iff_not_or]

private theorem ordered_eq_nil_iff (fields : List Field) : ordered fields = [] ↔ fields = [] := by
  rw [ordered, List.append_eq_nil_iff, List.filter_eq_nil_iff, List.filter_eq_nil_iff]
  constructor
  · rintro ⟨hr, ho⟩
    exact List.eq_nil_iff_forall_not_mem.mpr fun f hf ↦ ho f hf (by simpa using hr f hf)
  · rintro rfl
    exact ⟨List.forall_mem_nil _, List.forall_mem_nil _⟩

/-- An enumeration has no members exactly if all its values have parts. -/
private theorem membersOf_eq_nil_iff (values : List Json.Value) :
    membersOf values = [] ↔ ∀ v ∈ values, literal? v = none := by
  have hu (names : List String) : Naming.unique names = [] ↔ names = [] := by
    cases names with
    | nil => exact iff_of_true rfl rfl
    | cons name names => exact iff_of_false nofun nofun
  rw [membersOf, List.zipWith_eq_nil_iff, hu, List.map_eq_nil_iff, or_self,
    List.filterMap_eq_nil_iff]
  simp

end PythonModels

namespace Model

/-- Whether a model is documented by blanks only and has nothing else that a body is written for: an
enumeration all of whose values have parts, or a class without properties. -/
def LeavesBodyEmpty (model : Model) : Prop :=
  (∃ description, model.description = some description ∧ isBlankText description = true) ∧
    (model.kind = .enumeration ∧
        (∀ v ∈ model.options.getD [], PythonModels.literal? v = none) ∨
      model.kind = .record ∧
        ∃ required additional, model.meaning = .object [] required additional)

variable {model : Model}

/-- Where there is no description, something else is documented. -/
private theorem isBlankText_getD_iff (model : Model) {rest : String} (h : isBlankText rest = false)
    (title : String) : isBlankText (model.description.getD (title ++ rest)) = true ↔
      ∃ description, model.description = some description ∧ isBlankText description = true := by
  cases model.description with
  | none => simp [isBlankText_append, h]
  | some description => simp

private theorem leavesBodyEmpty_iff_of_enumeration (h : model.kind = .enumeration) :
    model.LeavesBodyEmpty ↔ isBlankText (PythonModels.enumOf model).doc = true ∧
      (PythonModels.enumOf model).members = [] := by
  have hr : isBlankText " options." = false := by decide
  have hd := model.isBlankText_getD_iff hr model.displayTitle
  rw [LeavesBodyEmpty, h, ← hd]
  simp [PythonModels.enumOf, PythonModels.membersOf_eq_nil_iff]

private theorem leavesBodyEmpty_iff_of_record (h : model.kind = .record) :
    model.LeavesBodyEmpty ↔ isBlankText (PythonModels.recordOf model).doc = true ∧
      (PythonModels.recordOf model).fields = [] := by
  have hr : isBlankText " object." = false := by decide
  have hd := model.isBlankText_getD_iff hr model.displayTitle
  have hm : (∃ required additional, model.meaning = .object [] required additional) ↔
      PythonModels.fieldsOf model.meaning = [] := by
    obtain ⟨properties, required, additional, he⟩ := exists_meaning_eq_object h
    simp [he, PythonModels.fieldsOf, PythonModels.ordered_eq_nil_iff]
  rw [LeavesBodyEmpty, h, ← hd, hm]
  simp [PythonModels.recordOf]

end Model

namespace Package

open Code

/-- The modules of a Python package are written line by line. Every header in the one with the
clients has a body; in the one with the models each header has one exactly if no model leaves it
empty. -/
theorem python_headersOpen_iff (plan : Plan) :
    (PythonClient.render (PythonClient.moduleOf plan)).toList =
        (linesOf 0 (clientCode .python plan)).flatMap (CodeLine.chars PythonClient.indentation) ∧
      (PythonModels.render (PythonModels.moduleOf plan)).toList =
        (linesOf 0 (modelCode .python plan)).flatMap (CodeLine.chars PythonClient.indentation) ∧
      HeadersOpen (linesOf 0 (clientCode .python plan)) ∧
      (HeadersOpen (linesOf 0 (modelCode .python plan)) ↔
        ∀ model ∈ plan.interface.models.toList, ¬model.LeavesBodyEmpty) := by
  refine ⟨toList_render _ _ (PythonClient.allLinewise_moduleCode _),
    toList_render _ _ (PythonModels.allLinewise_moduleCode _), ?_, ?_⟩
  · have ho := headersOpen_linesOf 0 _ (PythonClient.allFilled_moduleCode
      (PythonClient.moduleOf plan)) [] headersOpen_nil
    rwa [List.append_nil] at ho
  · have hk (kind : ModelKind) (model : Model) : model ∈ plan.interface.models.ofKind kind ↔
        model ∈ plan.interface.models.toList ∧ model.kind = kind := by
      simp [Models.ofKind]
    rw [modelCode, PythonModels.headersOpen_moduleCode_iff]
    simp only [PythonModels.moduleOf, List.forall_mem_map, hk]
    constructor
    · rintro ⟨he, hr⟩ model hm hl
      cases h : model.kind with
      | enumeration =>
        obtain ⟨hd, hn⟩ := (Model.leavesBodyEmpty_iff_of_enumeration h).mp hl
        exact he model ⟨hm, h⟩ hd hn
      | record =>
        obtain ⟨hd, hn⟩ := (Model.leavesBodyEmpty_iff_of_record h).mp hl
        exact hr model ⟨hm, h⟩ hd hn
      | synonym =>
        rcases hl.2 with ⟨hn, -⟩ | ⟨hn, -⟩
        · cases h.symm.trans hn
        · cases h.symm.trans hn
    · intro ho
      exact ⟨fun model hm hd hn ↦ ho model hm.1
          ((Model.leavesBodyEmpty_iff_of_enumeration hm.2).mpr ⟨hd, hn⟩),
        fun model hm hd hn ↦ ho model hm.1
          ((Model.leavesBodyEmpty_iff_of_record hm.2).mpr ⟨hd, hn⟩)⟩

/-- A document with a class that has no properties and is described by a blank. -/
def silent : Document where
  openrpc := "1.3.2"
  info := { title := "Pets", version := "1" }
  methods := []
  components := some { schemas := some [("Pet", (Schema.ofType .object).withDescription " ")] }

/-- A class that is documented by blanks only and has no fields has no body. -/
theorem exists_header_without_body :
    ∃ plan, Plan.ofDocument silent = .ok plan ∧
      (∃ before, linesOf 0 (modelCode .python plan) = before ++
        [⟨0, "class Pet(BaseModel):", true⟩, ⟨0, "", false⟩, ⟨0, "", false⟩,
          ⟨0, "Pet.model_rebuild()", false⟩]) ∧
      ¬HeadersOpen (linesOf 0 (modelCode .python plan)) := by
  have hf : ((Plan.ofDocument silent).toOption.map fun plan ↦
      ((PythonModels.moduleOf plan).enums.length,
        (PythonModels.moduleOf plan).records.map fun c ↦ (c.name, c.doc, c.fields.length),
        (PythonModels.moduleOf plan).aliases.length)) = some (0, [("Pet", " ", 0)], 0) := by
    decide +kernel
  obtain ⟨plan, hp, hm⟩ := exists_ok_of_map_toOption hf
  simp only [Prod.mk.injEq, List.length_eq_zero_iff] at hm
  obtain ⟨he, hr, ha⟩ := hm
  obtain ⟨⟨name, doc, fields⟩, hr, hc⟩ := List.map_eq_singleton_iff.mp hr
  simp only [Prod.mk.injEq, List.length_eq_zero_iff] at hc
  obtain ⟨rfl, rfl, rfl⟩ := hc
  have hd : linesOf 0 (PythonModels.definitionCode (PythonModels.moduleOf plan)) =
      [⟨0, "", false⟩, ⟨0, "", false⟩, ⟨0, "class Pet(BaseModel):", true⟩, ⟨0, "", false⟩,
        ⟨0, "", false⟩, ⟨0, "Pet.model_rebuild()", false⟩] := by
    rw [PythonModels.definitionCode, he, hr, ha]
    decide +kernel
  have hl : linesOf 0 (modelCode .python plan) =
      linesOf 0 (PythonModels.headCode (PythonModels.moduleOf plan)) ++
          [⟨0, "", false⟩, ⟨0, "", false⟩] ++
        ⟨0, "class Pet(BaseModel):", true⟩ :: [⟨0, "", false⟩, ⟨0, "", false⟩,
          ⟨0, "Pet.model_rebuild()", false⟩] := by
    rw [modelCode, PythonModels.moduleCode_eq, linesOf_append, hd, List.append_assoc]
    rfl
  refine ⟨plan, hp, ⟨_, hl⟩, fun ho ↦ ?_⟩
  obtain ⟨l, hf, hlt⟩ := ho _ _ _ hl rfl
  obtain rfl := Option.some.inj hf
  exact absurd hlt (Nat.lt_irrefl 0)

end Package

end RpcForge
