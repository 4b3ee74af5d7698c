import RpcForge.Proofs.Naming.Identifier
import RpcForge.Proofs.Package.Conversions
import RpcForge.Proofs.Package.Fields

/-!
# The parts of a class in TypeScript

A class mentions each property five times: as a field, as a parameter of the constructor, where the
constructor sets the field, and in the two conversions. All five parts are in the same order, and
the names in them are kept distinct, so that a value that is read for a property gets into the field
of the same property.
-/

namespace RpcForge.TypeScriptModels

open RpcForge.Text (quote)

/-! ## Fields and properties -/

/-- A field is that of a property. -/
structure FieldFor (required : List String) (entry : String × Meaning) (field : Field) : Prop where
  /-- The key in JSON is the name of the property. -/
  property : field.property = entry.1
  /-- The field means what the property means. -/
  meaning : field.meaning = entry.2
  /-- The type is that of what the property means. -/
  type : field.type = TypeExpr.typeOf .typeScript entry.2
  /-- The field has to be there if the property has to. -/
  required : field.required = required.contains entry.1
  /-- The name is made from that of the property. -/
  name : Naming.MadeFrom (Naming.camel entry.1) field.name
  /-- The parameter is named after the property, too. -/
  param : Naming.MadeFrom (Naming.typeScriptIdentifier entry.1) field.param

/-- Properties with those first that have to be there; otherwise the order is kept. -/
def requiredFirst (required : List String) (properties : List (String × Meaning)) :
    List (String × Meaning) :=
  properties.filter (fun entry ↦ required.contains entry.1) ++
    properties.filter fun entry ↦ !required.contains entry.1

/-- What is made of pairs belongs to what the pairs belong to. -/
private theorem forall₂_zipWith_right {α β γ : Type} {R : α → β → Prop} {S : α → γ → Prop}
    {f : α → β → γ} {as : List α} {bs : List β} (h : List.Forall₂ R as bs)
    (hf : ∀ a b, R a b → S a (f a b)) :
    List.Forall₂ S as (List.zipWith f as bs) := by
  induction h with
  | nil => exact .nil
  | cons h _ ih => exact .cons (hf _ _ h) ih

private theorem fieldFor_rawFields (required : List String) (properties : List (String × Meaning)) :
    List.Forall₂ (FieldFor required) properties (rawFields required properties) := by
  have hn := forall₂_zip_right
    (Naming.madeFrom_unique_map (fun entry ↦ Naming.camel entry.1) properties)
    (Naming.madeFrom_unique_map (fun entry ↦ Naming.typeScriptIdentifier entry.1) properties)
  rw [rawFields]
  exact forall₂_zipWith_right hn fun entry names h ↦ ⟨rfl, rfl, rfl, rfl, h.1, h.2⟩

private theorem forall₂_filter {α β : Type} {R : α → β → Prop} {p : α → Bool} {q : β → Bool}
    {as : List α} {bs : List β} (h : List.Forall₂ R as bs) (hpq : ∀ a b, R a b → p a = q b) :
    List.Forall₂ R (as.filter p) (bs.filter q) := by
  induction h with
  | nil => exact .nil
  | cons hr _ ih =>
    rw [List.filter_cons, List.filter_cons, hpq _ _ hr]
    split
    · exact .cons hr ih
    · exact ih

/-- There is a field for each property, and those come first that have to be there. -/
private theorem fieldFor_ordered (required : List String) (properties : List (String × Meaning)) :
    List.Forall₂ (FieldFor required) (requiredFirst required properties)
      (ordered (rawFields required properties)) := by
  have hr := fieldFor_rawFields required properties
  refine List.rel_append (forall₂_filter hr fun entry field h ↦ ?_)
    (forall₂_filter hr fun entry field h ↦ ?_)
  · exact h.required.symm
  · rw [h.required]

/-! ## Distinct names -/

private theorem map_name_rawFields (required : List String) (properties : List (String × Meaning)) :
    (rawFields required properties).map Field.name =
      Naming.unique (properties.map fun entry ↦ Naming.camel entry.1) :=
  List.ext_getElem (by simp [rawFields]) fun i _ _ ↦ by simp [rawFields]

private theorem map_param_rawFields (required : List String)
    (properties : List (String × Meaning)) :
    (rawFields required properties).map Field.param =
      Naming.unique (properties.map fun entry ↦ Naming.typeScriptIdentifier entry.1) :=
  List.ext_getElem (by simp [rawFields]) fun i _ _ ↦ by simp [rawFields]

private theorem ordered_perm (fields : List Field) : (ordered fields).Perm fields :=
  List.filter_append_perm _ _

/-- A number behind a name does not make it a reserved word, since these have no underscores. -/
private theorem not_mem_reserved_of_madeFrom {name given : String} (h : Naming.MadeFrom name given)
    (hn : name ∉ Naming.typeScriptReserved) : given ∉ Naming.typeScriptReserved := by
  cases h with
  | kept => exact hn
  | numbered k =>
    have hr : ∀ word ∈ Naming.typeScriptReserved, '_' ∉ word.toList := by decide
    intro hm
    exact hr _ hm (by simp [Naming.numbered])

variable {required : List String} {properties : List (String × Meaning)}

private theorem nodup_names_ordered :
    ((ordered (rawFields required properties)).map Field.name).Nodup := by
  rw [((ordered_perm _).map Field.name).nodup_iff, map_name_rawFields]
  exact Naming.nodup_unique _

private theorem nodup_params_ordered :
    ((ordered (rawFields required properties)).map Field.param).Nodup := by
  rw [((ordered_perm _).map Field.param).nodup_iff, map_param_rawFields]
  exact Naming.nodup_unique _

private theorem unreserved_ordered :
    ∀ field ∈ ordered (rawFields required properties), field.param ∉ Naming.typeScriptReserved := by
  have hu : ∀ given ∈ Naming.unique (properties.map fun entry ↦
      Naming.typeScriptIdentifier entry.1), given ∉ Naming.typeScriptReserved := by
    refine Naming.forall_mem_unique fun name hm given hg ↦ not_mem_reserved_of_madeFrom hg ?_
    obtain ⟨entry, -, rfl⟩ := List.mem_map.mp hm
    exact Naming.typeScriptIdentifier_not_mem _
  intro field hm
  refine hu _ ?_
  rw [← map_param_rawFields required]
  exact List.mem_map_of_mem ((ordered_perm _).mem_iff.mp hm)

/-! ## Values of fields -/

/-- What the fields of a new object hold where the constructor is called with arguments in order. A
parameter for which there is no argument is `undefined`. -/
def construct (fields : List Field) (arguments : List JsValue) : Entries JsValue :=
  fields.map fun field ↦ (field.name,
    (Entries.get? ((fields.map Field.param).zip arguments) field.param).getD .undefined)

/-- Where names and parameters differ, each field gets the value that was meant for it. -/
private theorem get?_construct {fields : List Field} (names : (fields.map Field.name).Nodup)
    (params : (fields.map Field.param).Nodup) (value : Field → JsValue) {field : Field}
    (hm : field ∈ fields) :
    Entries.get? (construct fields (fields.map value)) field.name = some (value field) := by
  have hz : (fields.map Field.param).zip (fields.map value) =
      fields.map fun field ↦ (field.param, value field) := by
    rw [List.zip_map', List.map_congr_left]
    exact fun _ _ ↦ rfl
  have hp : Entries.get? ((fields.map Field.param).zip (fields.map value)) field.param =
      some (value field) := by
    rw [hz]
    refine Entries.get?_of_mem ?_ (List.mem_map.mpr ⟨field, hm, rfl⟩)
    rw [Entries.keys, List.map_map]
    exact params
  refine Entries.get?_of_mem ?_ (List.mem_map.mpr ⟨field, hm, by rw [hp]; rfl⟩)
  rw [Entries.keys, construct, List.map_map]
  exact names

/-- Fields are those for properties, in the same order, and their names keep them apart. -/
structure InStep (required : List String) (entries : List (String × Meaning))
    (fields : List Field) : Prop where
  /-- There is one field for each property, in order. -/
  each : List.Forall₂ (FieldFor required) entries fields
  /-- The fields have different names. -/
  names : (fields.map Field.name).Nodup
  /-- The parameters have different names. -/
  params : (fields.map Field.param).Nodup
  /-- No parameter is a reserved word. -/
  unreserved : ∀ field ∈ fields, field.param ∉ Naming.typeScriptReserved
  /-- Where the constructor is called with one value for each property, in order, each value gets
  into the field of its own property. -/
  kept : ∀ value : Field → JsValue, ∀ field ∈ fields,
    Entries.get? (construct fields (fields.map value)) field.name = some (value field)

private theorem inStep_ordered (required : List String) (properties : List (String × Meaning)) :
    InStep required (requiredFirst required properties)
      (ordered (rawFields required properties)) where
  each := fieldFor_ordered required properties
  names := nodup_names_ordered
  params := nodup_params_ordered
  unreserved := unreserved_ordered
  kept value _ hm := get?_construct nodup_names_ordered nodup_params_ordered value hm

/-! ## The code of a class -/

/-- The parts of a class. -/
structure ClassParts where
  /-- The declarations of the fields. -/
  declarations : List String
  /-- The parameters of the constructor. -/
  parameters : List String
  /-- The statements of the constructor. -/
  assignments : List String
  /-- The members of the object that is written as JSON. -/
  members : List String
  /-- The arguments of the constructor where an object is read from JSON. -/
  arguments : List String

/-- The block of a class with given parts. -/
def ClassParts.block (name : String) (parts : ClassParts) : String × List Code :=
  ("export class " ++ name,
    parts.declarations.map .line ++ (if parts.declarations.isEmpty then [] else [.blank]) ++
      [.text "constructor(", .text (", ".intercalate parts.parameters),
        .braced ")" (parts.assignments.map .line),
        .blank,
        .braced "toJSON(): \x7b [key: string]: any \x7d"
          [.braced "return" (parts.members.map .line)],
        .blank,
        .braced ("static fromJSON(data: any): " ++ name)
          [.line ("return new " ++ name ++ "("), .nested (parts.arguments.map .line), .line ");"]])

/-- What stands between a name and its type. -/
def mark (field : Field) : String :=
  if field.required then ": " else "?: "

/-- The expression for a field as JSON: a Set becomes an array. -/
def writtenText (field : Field) : String :=
  let value := "this." ++ field.name
  if field.setItems?.isSome then
    value ++ " == null ? " ++ value ++ " : Array.from(" ++ value ++ ")"
  else value

/-- The expression for a field from the raw JSON of its property. -/
def readText (models : Models) (field : Field) : String :=
  let raw := "data[" ++ quote field.property ++ "]"
  match reading? models field.meaning with
  | none => raw
  | some r =>
    if field.required then r.text raw else raw ++ " == null ? " ++ raw ++ " : " ++ r.text raw

/-- The parts of a class with given fields: each has one item for every field, in order. -/
def partsOf (models : Models) (fields : List Field) : ClassParts where
  declarations := fields.map fun field ↦ field.name ++ mark field ++ field.type ++ ";"
  parameters := fields.map fun field ↦ field.param ++ mark field ++ field.type
  assignments := fields.map fun field ↦ "this." ++ field.name ++ " = " ++ field.param ++ ";"
  members := fields.map fun field ↦ quote field.property ++ ": " ++ writtenText field ++ ","
  arguments := fields.map fun field ↦ readText models field ++ ","

private theorem typedText_eq (name : String) (field : Field) :
    typedText name field = name ++ mark field ++ field.type := by
  rw [typedText, TypeScriptClient.argumentText, mark]
  cases field.required <;> simp [String.append_assoc]

private theorem blocks_recordCode (models : Models) (c : RecordClass) :
    Code.blocks (recordCode models c) = [(partsOf models c.fields).block c.name] := by
  have hw (field : Field) : toJson field.meaning ("this." ++ field.name) = writtenText field :=
    toJson_eq field _
  have hr (field : Field) : fromJsonText models field = readText models field :=
    fromJsonText_eq models field
  simp only [recordCode, typedText_eq, hw, hr]
  simp [ClassParts.block, partsOf, Code.separated, Function.comp_def]

/-- A class has one field for each property, first those that have to be there. All its parts have
one item for each field in that order, so they mention the same properties in the same places, and
the names in them keep the properties apart. -/
theorem class_inStep {model : Model} (record : model.kind = .record) :
    ∃ properties required additional fields,
      model.meaning = .object properties required additional ∧
      InStep required (requiredFirst required properties) fields ∧
      ∀ plan : Plan, model ∈ plan.interface.models.toList →
        (partsOf plan.interface.models fields).block model.name ∈
          Code.blocks (Package.modelCode .typeScript plan) := by
  obtain ⟨properties, required, additional, hm⟩ := model.exists_meaning_eq_object record
  refine ⟨properties, required, additional, ordered (rawFields required properties), hm,
    inStep_ordered required properties, fun plan hp ↦ mem_blocks_of_mem_models hp ?_⟩
  rw [declarationOf, record]
  dsimp only
  rw [declarationCode, blocks_recordCode, recordOf, hm]
  exact .head _

/-- The properties of accounts, two of which have one name in camel case. -/
def accountProperties : List (String × Meaning) :=
  [("userId", .flag true), ("user_id", .flag true), ("default", .flag true)]

/-- The schema of accounts. -/
def account : Schema where
  keywords := { types := some (.single .object), required := some ["user_id"] }
  properties := some [("userId", .flag true), ("user_id", .flag true), ("default", .flag true)]

/-- A document with accounts. -/
def accounts : Document where
  openrpc := "1.3.2"
  info := { title := "Accounts", version := "1" }
  methods := []
  components := some { schemas := some [("Account", account)] }

example : (ordered (rawFields ["user_id"] accountProperties)).map
    (fun field ↦ (field.property, field.name, field.param)) =
      [("user_id", "userId_2", "userId_2"), ("userId", "userId", "userId"),
        ("default", "default", "default_")] := by
  decide +kernel

/-- The class of accounts has its parts in step. -/
theorem class_inStep_accounts :
    ∃ plan, Plan.ofDocument accounts = .ok plan ∧
      ∃ model ∈ plan.interface.models.toList, model.kind = .record ∧
        ∃ fields, InStep ["user_id"] (requiredFirst ["user_id"] accountProperties) fields ∧
          (partsOf plan.interface.models fields).block model.name ∈
            Code.blocks (Package.modelCode .typeScript plan) := by
  have ha : ((Plan.ofDocument accounts).toOption.map fun _ ↦ ()) = some () := by decide +kernel
  obtain ⟨plan, hp, hmodels⟩ := Plan.exists_of_accepted ha
  have hm : Model.ofSchema "Account" account ∈ plan.interface.models.toList := by
    rw [hmodels]
    exact .head _
  have hk : (Model.ofSchema "Account" account).kind = .record := rfl
  obtain ⟨properties, required, additional, fields, ho, hi, hb⟩ := class_inStep hk
  obtain ⟨rfl, rfl, -⟩ := Meaning.object.inj ho
  exact ⟨plan, hp, _, hm, hk, fields, hi, hb plan hm⟩

end RpcForge.TypeScriptModels
