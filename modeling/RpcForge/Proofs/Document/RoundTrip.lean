import RpcForge.Proofs.Document.Loading
import RpcForge.Proofs.Document.Schema

/-!
# Reading and writing documents

A document is written as the normal form of the value it was read from, so that reading loses
nothing; and reading what was written gives the same document. Both are shown record by record, from
the records that hold no others up to the document.
-/

namespace RpcForge

open RpcForge.Json RpcForge.Part

variable {members : Entries Value}

/-! ## About the interface -/

private theorem Contact.recordKept (h : documentGrammar.Fits .contact [] members) :
    RecordKept .contact Contact.build Contact.toValue members := by
  have hName := fieldKept_text? h "name" rfl
  have hUrl := fieldKept_text? h "url" rfl
  have hEmail := fieldKept_text? h "email" rfl
  constructor
  · simp only [toValue, build]
    rw [arrange_eq_foldl, hName.written, hUrl.written, hEmail.written]
    rfl
  · simp only [build]
    rw [hName.again, hUrl.again, hEmail.again, ofMembers_arrange]

private theorem License.recordKept (h : documentGrammar.Fits .license [] members) :
    RecordKept .license License.build License.toValue members := by
  have hName := fieldKept_text h "name" rfl
  have hUrl := fieldKept_text? h "url" rfl
  constructor
  · simp only [toValue, build]
    rw [arrange_eq_foldl, hName.written, hUrl.written]
    rfl
  · simp only [build]
    rw [hName.again, hUrl.again, ofMembers_arrange]

private theorem Info.recordKept (h : documentGrammar.Fits .info [] members) :
    RecordKept .info Info.build Info.toValue members := by
  have hTitle := fieldKept_text h "title" rfl
  have hDescription := fieldKept_text? h "description" rfl
  have hTerms := fieldKept_text? h "termsOfService" rfl
  have hContact := fieldKept_record? h "contact" rfl fun _ ↦ Contact.recordKept
  have hLicense := fieldKept_record? h "license" rfl fun _ ↦ License.recordKept
  have hVersion := fieldKept_text h "version" rfl
  constructor
  · simp only [toValue, build]
    rw [arrange_eq_foldl, hTitle.written, hDescription.written, hTerms.written, hContact.written,
      hLicense.written, hVersion.written]
    rfl
  · simp only [build]
    rw [hTitle.again, hDescription.again, hTerms.again, hContact.again, hLicense.again,
      hVersion.again, ofMembers_arrange]

/-! ## Servers -/

private theorem ServerVariable.recordKept (h : documentGrammar.Fits .serverVariable [] members) :
    RecordKept .serverVariable ServerVariable.build ServerVariable.toValue members := by
  have hEnum := fieldKept_texts? h "enum" rfl
  have hDefault := fieldKept_text h "default" rfl
  have hDescription := fieldKept_text? h "description" rfl
  constructor
  · simp only [toValue, build]
    rw [arrange_eq_foldl, hEnum.written, hDefault.written, hDescription.written]
    rfl
  · simp only [build]
    rw [hEnum.again, hDefault.again, hDescription.again, ofMembers_arrange]

private theorem Server.recordKept (h : documentGrammar.Fits .server [] members) :
    RecordKept .server Server.build Server.toValue members := by
  have hName := fieldKept_text h "name" rfl
  have hUrl := fieldKept_text h "url" rfl
  have hSummary := fieldKept_text? h "summary" rfl
  have hDescription := fieldKept_text? h "description" rfl
  have hVariables : FieldKept .server members
      ⟨"variables", .optional, .map (.record .serverVariable)⟩
      (fun members ↦ (Members.members? members "variables").map buildVariables)
      (Members.given "variables" fun vs ↦ .object (Members.mapValues ServerVariable.toValue vs)) :=
    fieldKept_map? h "variables" rfl
      (keptBelow_members_getD fun _ ↦ ServerVariable.recordKept)
  constructor
  · simp only [toValue, build]
    rw [arrange_eq_foldl, hName.written, hUrl.written, hSummary.written, hDescription.written,
      hVariables.written]
    rfl
  · simp only [build]
    rw [hName.again, hUrl.again, hSummary.again, hDescription.again, hVariables.again,
      ofMembers_arrange]

/-- A field for a list of servers is kept. -/
private theorem fieldKept_servers {part : Part} (h : documentGrammar.Fits part [] members)
    (hf : documentGrammar.field? part "servers" =
      some ⟨"servers", .optional, .list (.record .server)⟩) :
    FieldKept part members ⟨"servers", .optional, .list (.record .server)⟩
      (fun members ↦ (Members.items? members "servers").map Server.buildAll)
      (Members.given "servers" fun servers ↦ .array (servers.map Server.toValue)) :=
  fieldKept_list? h "servers" hf (keptBelow_members_getD fun _ ↦ Server.recordKept)

/-! ## Descriptors and references -/

private theorem Descriptor.recordKept (h : documentGrammar.Fits .descriptor [] members) :
    RecordKept .descriptor Descriptor.build Descriptor.toValue members := by
  have hName := fieldKept_text h "name" rfl
  have hSummary := fieldKept_text? h "summary" rfl
  have hDescription := fieldKept_text? h "description" rfl
  have hRequired := fieldKept_flag? h "required" rfl
  have hSchema : FieldKept .descriptor members ⟨"schema", .required, .whole .schemaPosition⟩
      (fun members ↦ ((Entries.get? members "schema").map Schema.buildPosition).getD (.flag true))
      (fun p ↦ Members.always "schema" (Schema.positionToValue p)) :=
    (fieldKept_always h "schema" rfl (Schema.keptBelow_position _) (.flag true)).of_eq
      fun _ ↦ congrArg (Option.getD · (Position.flag true)) Option.map_eq_bind
  have hDeprecated := fieldKept_flag? h "deprecated" rfl
  constructor
  · simp only [toValue, build]
    rw [arrange_eq_foldl, hName.written, hSummary.written, hDescription.written,
      hRequired.written, hSchema.written, hDeprecated.written]
    rfl
  · simp only [build]
    rw [hName.again, hSummary.again, hDescription.again, hRequired.again, hSchema.again,
      hDeprecated.again, ofMembers_arrange]

/-- The pointer of a reference is kept. -/
private theorem Reference.recordKept (h : documentGrammar.Fits .reference [] members) :
    RecordKept .reference (fun members ↦ Reference.build (.object members)) Reference.toValue
      members := by
  have hPointer := fieldKept_text h "$ref" rfl
  -- A reference refuses all other members, so nothing stands beside its pointer.
  have hBeside : (Extensions.ofMembers .reference members).entries = [] := by
    rw [Extensions.ofMembers, Entries.besides, List.filter_eq_nil_iff]
    intro member hm
    have hk := field?_isSome_iff.mp (h.known rfl _ (Entries.mem_keys hm))
    simpa using hk
  constructor
  · simp only [toValue, build]
    rw [arrange_eq_foldl, hPointer.written, hBeside, List.append_nil]
    rfl
  · simp only [build]
    rw [hPointer.again]

/-- A place for a record or for a reference to one is kept if the records are. -/
private theorem OrReference.keptBelow {α : Type} {n : Nat} {place inline : Part}
    {buildInline : Entries Value → α} {inlineToValue : α → Value}
    (hs : ∀ v, documentGrammar.settle (.whole place) v =
      .ok (.record (if isReference v then .reference else inline)))
    (hi : "$ref" ∉ inline.keys)
    (kept : ∀ members, documentGrammar.Fits inline [] members →
      RecordKept inline buildInline inlineToValue members) :
    KeptBelow n (.whole place) (fun v ↦ some (build buildInline v)) (toValue inlineToValue) := by
  intro v _ h
  rw [kept_some_iff]
  cases (Grammar.error?_eq_none_iff _ _).mp h with
  | @record name members settled fits =>
    have ha := isReference_normal hi members
    rw [normal_of_settle_record settled, build, build]
    rw [hs] at settled
    cases hr : isReference (.object members) with
    | true =>
      rw [hr, if_pos rfl] at settled ha
      cases settled
      have hk := Reference.recordKept fits
      rw [if_pos rfl, if_pos ha]
      exact ⟨hk.written, congrArg OrReference.reference hk.again⟩
    | false =>
      rw [hr, if_neg Bool.false_ne_true] at settled ha
      cases settled
      have hk := kept members fits
      rw [if_neg Bool.false_ne_true, ha, if_neg Bool.false_ne_true]
      exact ⟨hk.written, congrArg OrReference.inline hk.again⟩
  | any settled =>
    rw [hs] at settled
    cases settled
  | _ settled =>
    rw [hs] at settled
    cases settled

private theorem keptBelow_descriptorOrReference {n : Nat} :
    KeptBelow n (.whole .descriptorOrReference)
      (fun v ↦ some (OrReference.build Descriptor.build v))
      (OrReference.toValue Descriptor.toValue) :=
  OrReference.keptBelow (fun _ ↦ rfl) (by decide) fun _ ↦ Descriptor.recordKept

/-! ## Methods -/

/-- How parameters are sent is kept as a plain name. -/
private theorem ParameterStructure.keptBelow {n : Nat} :
    KeptBelow n (.whole .parameterStructure) ParameterStructure.build (fun s ↦ .string s.name) := by
  intro v _ h
  obtain ⟨settled, hs⟩ := Grammar.exists_settle h
  obtain ⟨rfl, name, hm, hv⟩ := resolveStructure_eq_ok hs
  have hw : (ofName? name).map (fun s ↦ .string s.name) = some (Value.string name) := by
    simp only [structureNames, List.mem_cons, List.not_mem_nil, or_false] at hm
    rcases hm with rfl | rfl | rfl <;> rfl
  have hn := normal_of_settle_any hs
  rcases hv with rfl | rfl
  · exact ⟨by rw [hn]; exact hw, by rw [hn]; rfl⟩
  · exact ⟨by rw [hn]; exact hw, by rw [hn]; rfl⟩

private theorem Method.recordKept (h : documentGrammar.Fits .method [] members) :
    RecordKept .method Method.build Method.toValue members := by
  have hName := fieldKept_text h "name" rfl
  have hTags := fieldKept_items? h "tags" rfl
  have hSummary := fieldKept_text? h "summary" rfl
  have hDescription := fieldKept_text? h "description" rfl
  have hDocs := fieldKept_value? h "externalDocs" rfl
  have hParams := fieldKept_list h "params" rfl keptBelow_descriptorOrReference
  have hResult := fieldKept_present? h "result" rfl keptBelow_descriptorOrReference
  have hDeprecated := fieldKept_flag? h "deprecated" rfl
  have hServers := fieldKept_servers h rfl
  have hErrors := fieldKept_items? h "errors" rfl
  have hLinks := fieldKept_items? h "links" rfl
  have hStructure := fieldKept_optional h "paramStructure" rfl rfl ParameterStructure.keptBelow
  have hExamples := fieldKept_items? h "examples" rfl
  constructor
  · simp only [toValue, build]
    rw [arrange_eq_foldl, hName.written, hTags.written, hSummary.written, hDescription.written,
      hDocs.written, hParams.written, hResult.written, hDeprecated.written, hServers.written,
      hErrors.written, hLinks.written, hStructure.written, hExamples.written]
    rfl
  · simp only [build]
    rw [hName.again, hTags.again, hSummary.again, hDescription.again, hDocs.again, hParams.again,
      hResult.again, hDeprecated.again, hServers.again, hErrors.again, hLinks.again,
      hStructure.again, hExamples.again, ofMembers_arrange]

private theorem keptBelow_methodOrReference {n : Nat} :
    KeptBelow n (.whole .methodOrReference) (fun v ↦ some (OrReference.build Method.build v))
      (OrReference.toValue Method.toValue) :=
  OrReference.keptBelow (fun _ ↦ rfl) (by decide) fun _ ↦ Method.recordKept

/-! ## Components -/

private theorem Components.recordKept (h : documentGrammar.Fits .components [] members) :
    RecordKept .components Components.build Components.toValue members := by
  have hDescriptors := fieldKept_map? h "contentDescriptors" rfl
    (keptBelow_members_getD fun _ ↦ Descriptor.recordKept)
  have hSchemas := fieldKept_map? h "schemas" rfl Schema.keptBelow_build
  have hExamples := fieldKept_members? h "examples" rfl
  have hLinks := fieldKept_members? h "links" rfl
  have hErrors := fieldKept_members? h "errors" rfl
  have hPairings := fieldKept_members? h "examplePairingObjects" rfl
  have hTags := fieldKept_members? h "tags" rfl
  constructor
  · simp only [toValue, build]
    rw [arrange_eq_foldl, hDescriptors.written, hSchemas.written, hExamples.written,
      hLinks.written, hErrors.written, hPairings.written, hTags.written]
    rfl
  · simp only [build]
    rw [hDescriptors.again, hSchemas.again, hExamples.again, hLinks.again, hErrors.again,
      hPairings.again, hTags.again, ofMembers_arrange]

/-! ## Documents -/

namespace Document

private theorem recordKept (h : documentGrammar.Fits .document [] members) :
    RecordKept .document build toValue members := by
  have hVersion := fieldKept_text h "openrpc" rfl
  have hInfo := fieldKept_record h "info" rfl fun _ ↦ Info.recordKept
  have hServers := fieldKept_servers h rfl
  have hMethods := fieldKept_list h "methods" rfl keptBelow_methodOrReference
  have hComponents := fieldKept_record? h "components" rfl fun _ ↦ Components.recordKept
  have hDocs := fieldKept_value? h "externalDocs" rfl
  have hMeta := fieldKept_text? h "$schema" rfl
  constructor
  · simp only [toValue, build]
    rw [arrange_eq_foldl, hVersion.written, hInfo.written, hServers.written, hMethods.written,
      hComponents.written, hDocs.written, hMeta.written]
    rfl
  · simp only [build]
    rw [hVersion.again, hInfo.again, hServers.again, hMethods.again, hComponents.again,
      hDocs.again, hMeta.again, ofMembers_arrange]

/-- A value that is a document is an object whose members are in order. -/
private theorem exists_of_ofValue_eq_ok {v : Value} {document : Document}
    (h : ofValue v = .ok document) : ∃ members, v = .object members ∧
      documentGrammar.Fits .document [] members ∧ document = build members := by
  obtain ⟨he, rfl⟩ := (ofValue_eq_ok_iff v document).mp h
  cases (Grammar.error?_eq_none_iff _ _).mp he with
  | @record name members settled fits =>
    cases settled
    exact ⟨members, rfl, fits, rfl⟩
  | _ settled => cases settled

/-- A document with members out of order, `null` in several places, a reference, both forms of
items, further keywords and a method that names its parameters' structure by an object. -/
def unsorted : Value :=
  .object [
    ("methods", .array [
      .object [("$ref", .string "#/components/methods/erase")],
      .object [("x-note", .array [.null, .bool true]), ("name", .string "draw"),
        ("params", .array [.object [
          ("schema", .object [("minimum", .ofInt 2), ("const", .null), ("title", .null),
            ("properties", .object [("q", .object [
                ("items", .array [.object [("$ref", .string "#/components/schemas/Q")],
                  .bool false]),
                ("default", .null)]),
              ("p", .bool true)]),
            ("items", .bool true), ("type", .array [.string "object", .string "null"])]),
          ("name", .string "shape")]]),
        ("result", .null), ("paramStructure", .object [("by-name", .null)])]]),
    ("x-before", .null), ("openrpc", .string "1.3.2"),
    ("info", .object [("version", .string "1"), ("title", .string "Shapes")])]

/-- The same document in normal form. -/
def sorted : Value :=
  .object [("openrpc", .string "1.3.2"),
    ("info", .object [("title", .string "Shapes"), ("version", .string "1")]),
    ("methods", .array [
      .object [("$ref", .string "#/components/methods/erase")],
      .object [("name", .string "draw"),
        ("params", .array [.object [("name", .string "shape"),
          ("schema", .object [("type", .array [.string "object", .string "null"]),
            ("const", .null), ("items", .bool true),
            ("properties", .object [("q", .object [("default", .null),
                ("items", .array [.object [("$ref", .string "#/components/schemas/Q")],
                  .bool false])]),
              ("p", .bool true)]),
            ("minimum", .ofInt 2)])]]),
        ("paramStructure", .string "by-name"), ("x-note", .array [.null, .bool true])]]),
    ("x-before", .null)]

/-- Reading loses nothing: a document is written as the normal form of the value that it was read
from. -/
theorem toValue_eq_normal {v : Value} {document : Document} (h : ofValue v = .ok document) :
    document.toValue = normal (.record .document) v := by
  obtain ⟨members, rfl, fits, rfl⟩ := exists_of_ofValue_eq_ok h
  rw [normal_of_settle_record rfl]
  exact (recordKept fits).written

/-- The document out of order is written in order. -/
theorem toValue_eq_normal_unsorted :
    ∃ document, ofValue unsorted = .ok document ∧ document.toValue = sorted := by
  have h : ofValue unsorted = .ok (build (unsorted.members?.getD [])) := rfl
  refine ⟨_, h, ?_⟩
  rw [toValue_eq_normal h]
  rfl

/-- Reading undoes writing on every document that can be read. -/
theorem ofValue_toValue {v : Value} {document : Document} (h : ofValue v = .ok document) :
    ofValue document.toValue = .ok document := by
  obtain ⟨members, rfl, fits, rfl⟩ := exists_of_ofValue_eq_ok h
  have he := error?_normal ((ofValue_eq_ok_iff _ _).mp h).1
  rw [normal_of_settle_record rfl] at he
  rw [(recordKept fits).written, ofValue_eq_ok_iff]
  exact ⟨he, (recordKept fits).again.symm⟩

/-- What is written for the document out of order is read as the same document. -/
theorem ofValue_toValue_unsorted : ∃ document, ofValue unsorted = .ok document ∧
    document.methods.length = 2 ∧ ofValue document.toValue = .ok document := by
  have h : ofValue unsorted = .ok (build (unsorted.members?.getD [])) := rfl
  exact ⟨_, h, rfl, ofValue_toValue h⟩

end Document

end RpcForge
