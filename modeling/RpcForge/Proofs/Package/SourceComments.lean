import RpcForge.Package.TypeScriptModels
import RpcForge.Proofs.Client.ParameterNames
import RpcForge.Proofs.Client.Plan
import RpcForge.Proofs.Code.Comments
import RpcForge.Proofs.Interface.ModelNames
import RpcForge.Proofs.Naming.Distinct
import RpcForge.Proofs.Text.Casing

/-!
# Comments in TypeScript sources

All documentation is escaped, and the path of a group is made of names. Only the title of an
interface gets into a comment as it stands: that of the class of a client.
-/

namespace RpcForge

open Code Text

/-! ## Names at the start of lines -/

namespace Naming

theorem IsIdentifier.startsPlain {name : String} (h : IsIdentifier name) :
    Code.startsPlain name = true := by
  obtain ⟨c, cs, hn, hc, -⟩ := h
  rw [Code.startsPlain, hn]
  refine bne_iff_ne.mpr ?_
  rintro rfl
  revert hc
  decide

/-- A number behind a name does not change how the name starts. -/
private theorem startsPlain_unique {names : List String}
    (h : ∀ name ∈ names, Code.startsPlain name = true) :
    ∀ name ∈ unique names, Code.startsPlain name = true := by
  refine forall_mem_unique fun name hm given hg ↦ ?_
  cases hg with
  | kept => exact h name hm
  | numbered k => exact startsPlain_append (startsPlain_append (h name hm) _) _

private theorem startsPlain_enumMember (v : Json.Value) :
    Code.startsPlain (enumMember v) = true := by
  unfold enumMember
  split
  · exact (isIdentifier_cased _ _).startsPlain
  · exact startsPlain_append (by decide) _
  all_goals decide

end Naming

namespace TypeScriptClient

/-! ## Clients -/

private theorem startsPlain_argumentText {arg : Argument} (h : startsPlain arg.name = true) :
    startsPlain (argumentText arg) = true := by
  rw [argumentText]
  exact startsPlain_append (startsPlain_append (startsPlain_append h _) _) _

private theorem hasPart_close_of_not_mem {text : String} (h : '*' ∉ text.toList) :
    hasPart text "*/" = false := by
  rw [Bool.eq_false_iff, ne_eq, hasPart_iff]
  exact fun hi ↦ h (hi.subset (by decide))

/-- The path of a group is made of identifiers. -/
private theorem isIdentifier_of_mem_path {document : Document} {plan : Plan}
    (made : plan.MadeFor document) {group : Group} (hg : group ∈ plan.groups) {name : String}
    (hn : name ∈ group.path) : Naming.IsIdentifier name := by
  have hp : group.path ∈ plan.root.descendants.map Group.path :=
    List.mem_map_of_mem (List.mem_of_mem_filter hg)
  rcases (Group.mem_paths_iff made.made.2 _).mp hp with he | ⟨operation, -, hpre⟩
  · rw [he] at hn
    cases hn
  · have hs := (List.dropLast_prefix _).subset (hpre.subset hn)
    obtain ⟨piece, -, rfl⟩ := List.mem_map.mp hs
    exact Naming.isIdentifier_sanitizeChars _

private theorem closes_requestCode (call : String) (m : MethodDef) :
    Closes (requestCode call m) := by
  unfold requestCode
  dsimp only
  split
  · exact closes_line (by simp +decide [String.append_assoc, startsPlain_append])
  · exact (closes_line (by simp +decide [String.append_assoc, startsPlain_append])).cons
      (closes_line (by simp +decide [String.append_assoc, startsPlain_append]))
  · exact (closes_line (by simp +decide [String.append_assoc, startsPlain_append])).cons
      (closes_line (by simp +decide [String.append_assoc, startsPlain_append]))

private theorem closes_methodCode (call : String) (m : MethodDef) : Closes (methodCode call m) := by
  refine closes_blank.cons ((Comment.closes_block m.doc).append (closes_braced _ ?_))
  exact (closes_line (by simp +decide [String.append_assoc, startsPlain_append])).cons
    (closes_requestCode call m)

private theorem closes_subgroupFields (members : List SubgroupMember) :
    Closes (subgroupFields members) :=
  closes_lines fun member _ ↦ by simp +decide [String.append_assoc, startsPlain_append]

private theorem closes_subgroupAssignments (members : List SubgroupMember) :
    Closes (subgroupAssignments members) :=
  closes_lines fun member _ ↦ by simp +decide [String.append_assoc, startsPlain_append]

private theorem closes_propertyCode {p : Property} (h : startsPlain p.argument.name = true) :
    Closes (propertyCode p) := by
  have hl : Closes [.line (argumentText p.argument ++ ";")] :=
    closes_line (startsPlain_append (startsPlain_argumentText h) _)
  unfold propertyCode
  cases p.description with
  | none => exact hl
  | some text =>
    rw [Option.map_some, Option.getD_some]
    exact (Comment.closes_block text).append hl

private theorem closes_interfaceCode (operation : Operation) :
    Closes (interfaceCode (interfaceOf operation)) := by
  refine closes_blank.cons (closes_braced _ (closes_flatMap fun p hp ↦ closes_propertyCode ?_))
  rw [interfaceOf] at hp
  obtain ⟨param, -, rfl⟩ := List.mem_map.mp hp
  simp only [Argument.ofParameter]
  exact (Naming.isIdentifier_typeScriptIdentifier param.name).startsPlain

/-- The path of a group is made of names, so it does not close a comment. -/
private theorem closes_groupClassCode {c : GroupClass}
    (h : ∀ name ∈ c.path, Naming.IsIdentifier name) :
    Closes (groupClassCode c) := by
  have hc : Closes [.line ("/** Methods under `" ++ ".".intercalate c.path ++ "`. */")] := by
    have he : "/** Methods under `" ++ ".".intercalate c.path ++ "`. */" =
        "/** " ++ ("Methods under `" ++ ".".intercalate c.path ++ "`.") ++ " */" := by
      simp [← String.toList_inj]
    rw [he]
    refine (closesIff_comment _).congr (iff_true_intro (hasPart_close_of_not_mem ?_))
    simp only [String.toList_append, String.toList_intercalate, List.mem_append, not_or]
    refine ⟨⟨by decide, fun hm ↦ ?_⟩, by decide⟩
    rcases mem_intercalate hm with hm | ⟨cs, hcs, hm⟩
    · revert hm
      decide
    · obtain ⟨name, hn, rfl⟩ := List.mem_map.mp hcs
      exact absurd ((h name hn).forall_mem '*' hm) (by decide)
  refine closes_blank.cons (hc.cons (closes_braced _ ?_))
  refine Closes.append (Closes.append ?_ (closes_blank.cons (closes_braced _ ?_)))
    (closes_flatMap fun m _ ↦ closes_methodCode _ m)
  · exact (closes_line (by decide)).cons (closes_subgroupFields _)
  · exact (closes_line (by decide)).cons (closes_subgroupAssignments _)

/-- Only the title can close what is said about a client. -/
private theorem hasPart_clientComment (title : String) (transport : Transport) :
    hasPart (title ++ " client over " ++ transport.classSuffix ++ ".") "*/" =
      hasPart title "*/" := by
  have hs : (title ++ " client over " ++ transport.classSuffix ++ ".").toList =
      title.toList ++ ' ' :: ("client over " ++ transport.classSuffix ++ ".").toList := by
    simp
  have hr : occursIn "*/".toList ("client over " ++ transport.classSuffix ++ ".").toList =
      false := by
    cases transport <;> decide
  rw [hasPart, hs, occursIn_append_cons (by decide), hr, Bool.or_false, hasPart]

/-- The comment of the class of a client ends where it closes if the title does not close it. -/
private theorem closesIff_clientClassCode (s : Source) (c : ClientClass) :
    ClosesIff (clientClassCode s c) (hasPart s.title "*/" = false) := by
  have hc : ClosesIff
      [.line ("/** " ++ s.title ++ " client over " ++ c.transport.classSuffix ++ ". */")]
      (hasPart s.title "*/" = false) := by
    have he : "/** " ++ s.title ++ " client over " ++ c.transport.classSuffix ++ ". */" =
        "/** " ++ (s.title ++ " client over " ++ c.transport.classSuffix ++ ".") ++ " */" := by
      simp [← String.toList_inj]
    rw [he]
    refine (closesIff_comment _).congr ?_
    rw [hasPart_clientComment]
  have hb : Closes [.braced ("export class " ++ c.name ++ " extends " ++ c.base)
      (subgroupFields c.subgroups ++ (if c.subgroups.isEmpty then [] else [Code.blank]) ++
        [Code.braced
          ("constructor(url: string = " ++ defaultUrlText s.defaultUrl ++ ", headers?: object)")
          (.line "super(url, headers);" ::
            if c.subgroups.isEmpty then []
            else
              .line "const rpc: RpcCall = (method, params) => this.call(method, params);" ::
                subgroupAssignments c.subgroups)] ++
        c.methods.flatMap (methodCode "this.call"))] := by
    refine closes_braced _ (((closes_subgroupFields _).append ?_).append
      (closes_braced _ ((closes_line (by decide)).cons ?_)) |>.append
        (closes_flatMap fun m _ ↦ closes_methodCode _ m))
    · split
      · exact closesIff_nil
      · exact closes_blank
    · split
      · exact closesIff_nil
      · exact (closes_line (by decide)).cons (closes_subgroupAssignments _)
  exact (ClosesIff.append closes_blank (hc.append hb)).congr (by simp)

private theorem closes_importCode (s : Source) : Closes (importCode s) := by
  have hl (names : List String) (source : String) : Closes [importLine names source] :=
    closes_line (by simp +decide [String.append_assoc, startsPlain_append])
  unfold importCode
  refine (hl _ _).cons ?_
  split
  · exact hl _ _
  · exact closesIff_nil

private theorem closes_serversCode (plan : Plan) : Closes (serversCode (sourceOf plan)) := by
  refine closes_blank.cons (.cons (closes_braced _ (closes_lines fun entry he ↦ ?_))
    (closes_blank.cons (closes_line (by decide))))
  have hn : startsPlain entry.1 = true := by
    refine Naming.startsPlain_unique (fun name hm ↦ ?_) _ (List.of_mem_zip he).1
    obtain ⟨e, -, rfl⟩ := List.mem_map.mp hm
    exact (Naming.isIdentifier_cased _ _).startsPlain
  exact startsPlain_append (startsPlain_append (startsPlain_append hn _) _) _

private theorem closes_serializeCode : Closes serializeCode := by
  have hl {t : String} (h : startsPlain t = true) {rest : List Code} (hr : Closes rest) :
      Closes (.line t :: rest) := (closes_line h).cons hr
  have hb (header : String) {body rest : List Code} (h : Closes body) (hr : Closes rest) :
      Closes (.braced header body :: rest) := (closes_braced header h).cons hr
  have hn : Closes [] := closesIff_nil
  refine closes_blank.cons (hb _ (hl (by decide) hn) (closes_blank.cons (hb _ ?_
    (closes_blank.cons (hb _ ?_ hn)))))
  · exact hl (by decide) (hb _ (hb _ (hl (by decide) hn) hn) (hl (by decide) hn))
  · exact hb _ (hl (by decide) hn) (hb _ (hl (by decide) hn) (hl (by decide) hn))

/-- All comments in front of the classes of the clients end where they close. -/
private theorem closes_frontCode {document : Document} {plan : Plan}
    (made : plan.MadeFor document) :
    Closes (Comment.block (Comment.heading (sourceOf plan).title "client") ++
      importCode (sourceOf plan) ++ serversCode (sourceOf plan) ++
      (sourceOf plan).interfaces.flatMap interfaceCode ++
      (sourceOf plan).groupClasses.flatMap groupClassCode) := by
  have hi : Closes ((sourceOf plan).interfaces.flatMap interfaceCode) := by
    refine closes_flatMap fun i hm ↦ ?_
    obtain ⟨operation, -, rfl⟩ := List.mem_map.mp hm
    exact closes_interfaceCode operation
  have hg : Closes ((sourceOf plan).groupClasses.flatMap groupClassCode) := by
    refine closes_flatMap fun c hm ↦ closes_groupClassCode fun name hn ↦ ?_
    obtain ⟨group, hgroup, rfl⟩ := List.mem_map.mp hm
    exact isIdentifier_of_mem_path made hgroup hn
  exact ((((Comment.closes_block _).append (closes_importCode _)).append
    (closes_serversCode plan)).append hi).append hg

/-- The comments in the source with the clients all end where they close exactly if the title does
not close a comment. -/
private theorem closesIff_sourceCode {document : Document} {plan : Plan}
    (made : plan.MadeFor document) :
    ClosesIff (sourceCode (sourceOf plan)) (hasPart plan.interface.info.title "*/" = false) := by
  have hc : ClosesIff ((sourceOf plan).clients.flatMap (clientClassCode (sourceOf plan)))
      (hasPart plan.interface.info.title "*/" = false) := by
    refine (closesIff_flatMap (closesIff_clientClassCode (sourceOf plan)) _).congr ?_
    have hn : (sourceOf plan).clients ≠ [] := by
      have ht := made.transports_ne_nil
      simpa [sourceOf] using ht
    obtain ⟨c, hm⟩ := List.exists_mem_of_ne_nil _ hn
    exact ⟨fun h ↦ h c hm, fun h _ _ ↦ h⟩
  exact ((ClosesIff.append (closes_frontCode made) hc).append closes_serializeCode).congr
    (by simp)

/-- The comment of the class of a client is found in the source, with the title as it stands. -/
private theorem finds_sourceCode {document : Document} {plan : Plan} (made : plan.MadeFor document)
    {c : ClientClass} (hc : c ∈ (sourceOf plan).clients)
    (hn : '\n' ∉ plan.interface.info.title.toList) :
    Finds (sourceCode (sourceOf plan)) ("/** " ++ (plan.interface.info.title ++ " client over " ++
      c.transport.classSuffix ++ ".") ++ " */") := by
  obtain ⟨before, after, he⟩ := List.append_of_mem hc
  have hs : '\n' ∉ (plan.interface.info.title ++ " client over " ++
      c.transport.classSuffix ++ ".").toList := by
    cases c.transport <;> simp [hn, Transport.classSuffix]
  have hl : clientClassCode (sourceOf plan) c =
      [Code.blank] ++ ([Code.line ("/** " ++ (plan.interface.info.title ++ " client over " ++
        c.transport.classSuffix ++ ".") ++ " */")] ++
          (clientClassCode (sourceOf plan) c).drop 2) := by
    simp [clientClassCode, sourceOf, String.append_assoc]
  have hf := ((finds_comment hs).append ((clientClassCode (sourceOf plan) c).drop 2)).behind
    closes_blank
  rw [← hl] at hf
  rw [sourceCode, he, List.flatMap_append, List.flatMap_cons]
  exact ((hf.append _).behind (closesIff_flatMap (closesIff_clientClassCode _) before)).behind
    (closes_frontCode made) |>.append _

end TypeScriptClient

namespace TypeScriptModels

/-! ## Models -/

private theorem startsPlain_typedText {name : String} (h : startsPlain name = true)
    (field : Field) :
    startsPlain (typedText name field) = true :=
  TypeScriptClient.startsPlain_argumentText h

private theorem startsPlain_quote (s : String) : startsPlain (quote s) = true := by
  rw [startsPlain, quote, String.toList_ofList]
  rfl

private theorem startsPlain_of_mem_rawFields {required : List String}
    {properties : List (String × Meaning)} {field : Field}
    (h : field ∈ rawFields required properties) : startsPlain field.name = true := by
  rw [rawFields, ← List.map_uncurry_zip_eq_zipWith] at h
  obtain ⟨⟨entry, names⟩, hm, rfl⟩ := List.mem_map.mp h
  have hn : names.1 ∈ Naming.unique (properties.map fun entry ↦ Naming.camel entry.1) :=
    (List.of_mem_zip (List.of_mem_zip hm).2).1
  refine Naming.startsPlain_unique (fun name hm ↦ ?_) _ hn
  obtain ⟨entry, -, rfl⟩ := List.mem_map.mp hm
  exact (Naming.isIdentifier_cased _ _).startsPlain

private theorem startsPlain_of_mem_fieldsOf {meaning : Meaning} {field : Field}
    (h : field ∈ fieldsOf meaning) : startsPlain field.name = true := by
  unfold fieldsOf at h
  split at h
  · rcases List.mem_append.mp h with h | h
    · exact startsPlain_of_mem_rawFields (List.mem_of_mem_filter h)
    · exact startsPlain_of_mem_rawFields (List.mem_of_mem_filter h)
  · cases h

mutual

/-- What is read begins like what is raw, or like the name of a class. -/
private theorem startsPlain_fromJson? {models : Models}
    (named : ∀ model ∈ models.toList, startsPlain model.name = true) :
    ∀ (meaning : Meaning) {raw expression : String},
    startsPlain raw = true → TypeScriptClient.fromJson? models meaning raw = some expression →
      startsPlain expression = true
  | .types members, _, _, hr, h => startsPlain_soleFromJson? named members hr h
  | .union _ branches, _, _, hr, h => startsPlain_soleFromJson? named branches hr h
  | .list items distinct, raw, expression, hr, h => by
    simp only [TypeScriptClient.fromJson?, Models.recordOf?] at h
    split at h
    · obtain rfl := Option.some.inj h
      simp +decide [String.append_assoc, startsPlain_append]
    · obtain ⟨inner, -, rfl⟩ := Option.map_eq_some_iff.mp h
      exact startsPlain_append (startsPlain_append (startsPlain_append hr _) _) _
  | .ref pointer, raw, expression, hr, h => by
    simp only [TypeScriptClient.fromJson?] at h
    cases hm : models.recordOf? (.ref pointer) with
    | none =>
      rw [hm] at h
      cases h
    | some model =>
      rw [hm] at h
      obtain rfl := Option.some.inj h
      have hmem : model ∈ models.toList :=
        List.mem_of_find?_eq_some (Option.filter_eq_some_iff.mp hm).1
      exact startsPlain_append (startsPlain_append (startsPlain_append (named model hmem) _) _) _
  | .absent, _, _, _, h => by cases h
  | .flag _, _, _, _, h => by cases h
  | .const _, _, _, _, h => by cases h
  | .scalar _, _, _, _, h => by cases h
  | .formatted _, _, _, _, h => by cases h
  | .tuple _ _ _, _, _, _, h => by cases h
  | .object _ _ _, _, _, _, h => by cases h

private theorem startsPlain_soleFromJson? {models : Models}
    (named : ∀ model ∈ models.toList, startsPlain model.name = true) :
    ∀ (members : List Meaning) {raw expression : String} {nullable : Bool},
    startsPlain raw = true →
      TypeScriptClient.soleFromJson? models members raw nullable = some expression →
        startsPlain expression = true
  | [], _, _, _, _, h => by cases h
  | m :: ms, raw, expression, nullable, hr, h => by
    rw [TypeScriptClient.soleFromJson?] at h
    split at h
    · exact startsPlain_soleFromJson? named ms hr h
    · split at h
      · obtain ⟨inner, hi, rfl⟩ := Option.map_eq_some_iff.mp h
        split
        · exact startsPlain_append (startsPlain_append hr _) _
        · exact startsPlain_fromJson? named m hr hi
      · cases h

end

section

variable {models : Models} (named : ∀ model ∈ models.toList, startsPlain model.name = true)

include named

private theorem startsPlain_fromJsonText (field : Field) :
    startsPlain (fromJsonText models field) = true := by
  have hr : startsPlain (rawText field) = true := by
    simp +decide [rawText, String.append_assoc, startsPlain_append]
  unfold fromJsonText
  split
  · next converted hc =>
    split
    · exact startsPlain_fromJson? named _ hr hc
    · exact startsPlain_append (startsPlain_append (startsPlain_append
        (startsPlain_append hr _) _) _) _
  · exact hr

private theorem closes_recordCode (model : Model) :
    Closes (recordCode models (recordOf model)) := by
  have hn : ∀ field ∈ (recordOf model).fields, startsPlain field.name = true :=
    fun field hf ↦ startsPlain_of_mem_fieldsOf hf
  have hb (header : String) {body rest : List Code} (h : Closes body) (hr : Closes rest) :
      Closes (.braced header body :: rest) := (closes_braced header h).cons hr
  have hl {t : String} (h : startsPlain t = true) {rest : List Code} (hr : Closes rest) :
      Closes (.line t :: rest) := (closes_line h).cons hr
  refine (Comment.closes_block _).append (closes_braced _ (Closes.append (.append ?_ ?_) ?_))
  · exact closes_lines fun field hf ↦
      startsPlain_append (startsPlain_typedText (hn field hf) field) _
  · split
    · exact closesIff_nil
    · exact closes_blank
  · refine (closes_text _).cons ((closes_text _).cons (hb _ ?_ (closes_blank.cons (hb _ ?_
      (closes_blank.cons (hb _ ?_ closesIff_nil))))))
    · exact closes_lines fun field _ ↦ by simp +decide [String.append_assoc, startsPlain_append]
    · refine hb _ (closes_lines fun field _ ↦ ?_) closesIff_nil
      exact startsPlain_append (startsPlain_append (startsPlain_append
        (startsPlain_quote field.property) _) _) _
    · refine hl (by simp +decide [String.append_assoc, startsPlain_append]) (Closes.cons ?_
        (hl (by decide) closesIff_nil))
      exact closes_nested (closes_lines fun field _ ↦
        startsPlain_append (startsPlain_fromJsonText named field) _)

private theorem closes_declarationCode (model : Model) :
    Closes (declarationCode models (declarationOf model)) := by
  have halias : Closes (aliasCode (aliasOf model)) :=
    (Comment.closes_block _).append
      (closes_line (by simp +decide [String.append_assoc, startsPlain_append]))
  unfold declarationOf
  split
  · exact closes_recordCode named model
  · unfold enumOf
    split
    · refine (Comment.closes_block _).append (closes_braced _ (closes_lines fun entry he ↦ ?_))
      have hn : startsPlain entry.1 = true := by
        refine Naming.startsPlain_unique (fun name hm ↦ ?_) _ (List.of_mem_zip he).1
        obtain ⟨v, -, rfl⟩ := List.mem_map.mp hm
        exact Naming.startsPlain_enumMember v
      exact startsPlain_append (startsPlain_append (startsPlain_append hn _) _) _
    · exact halias
  · exact halias

end

/-- The comments in the source with the models all end where they close. -/
private theorem closes_sourceCode {document : Document} {plan : Plan}
    (made : plan.MadeFor document) :
    Closes (sourceCode (sourceOf plan)) := by
  have named : ∀ model ∈ plan.interface.models.toList, startsPlain model.name = true := by
    intro model hm
    obtain ⟨hne, hk⟩ := Interface.named_of_ofDocument made.made.1 model.name
      (List.mem_map_of_mem hm)
    obtain ⟨c, cs, hc⟩ := List.exists_cons_of_ne_nil hne
    rw [startsPlain, hc]
    refine bne_iff_ne.mpr ?_
    rintro rfl
    exact absurd (hk '/' (hc ▸ .head _)) (by decide)
  refine (Comment.closes_block _).append (closes_flatMap fun d hd ↦ closes_blank.cons ?_)
  obtain ⟨model, -, rfl⟩ := List.mem_map.mp hd
  exact closes_declarationCode named model

end TypeScriptModels

namespace TypeScriptPackage

/-! ## Packages -/

/-- The comments in a source, as they are written. -/
def commentsOf (code : List Code) : List String :=
  comments none { unit := TypeScriptClient.indentation } code

/-- Comments are parts of the sources. In the source with the models they all end where they close,
and in the source with the clients they do exactly if the title does not close a comment. -/
theorem comments_close_iff {document : Document} {plan : Plan} (made : plan.MadeFor document) :
    let models := TypeScriptModels.sourceOf plan
    let clients := TypeScriptClient.sourceOf plan
    (∀ comment ∈ commentsOf (TypeScriptModels.sourceCode models),
      hasPart (TypeScriptModels.render models) comment = true ∧ Comment.ClosesOnce comment) ∧
    (∀ comment ∈ commentsOf (TypeScriptClient.sourceCode clients),
      hasPart (TypeScriptClient.render clients) comment = true) ∧
    ((∀ comment ∈ commentsOf (TypeScriptClient.sourceCode clients), Comment.ClosesOnce comment) ↔
      hasPart plan.interface.info.title "*/" = false) := by
  intro models clients
  have hw : CodeWriter.IndentsByBlanks { unit := TypeScriptClient.indentation } :=
    CodeWriter.indentsByBlanks_of_all (by decide)
  refine ⟨fun comment hc ↦ ⟨hasPart_render hc, ?_⟩, fun comment hc ↦ hasPart_render hc,
    (TypeScriptClient.closesIff_sourceCode made).comments hw⟩
  exact ((TypeScriptModels.closes_sourceCode made).comments hw).mpr trivial comment hc

/-- A document with a title, and with a method whose description closes a comment. -/
def titled (title : String) : Document where
  openrpc := "1.3.2"
  info := { title := title, version := "1" }
  methods := [.inline { name := "list", description := some "Lists */ pets.", params := [] }]

/-- Descriptions may close a comment. -/
theorem comments_close_pets :
    ∃ plan, Plan.ofDocument (titled "Pets") = .ok plan ∧
      ∀ comment ∈ commentsOf (TypeScriptClient.sourceCode (TypeScriptClient.sourceOf plan)),
        Comment.ClosesOnce comment := by
  have hf : ((Plan.ofDocument (titled "Pets")).toOption.map fun plan ↦
      plan.interface.info.title) = some "Pets" := by decide +kernel
  obtain ⟨plan, hp, ht⟩ := exists_ok_of_map_toOption hf
  refine ⟨plan, hp, (comments_close_iff (.fresh hp)).2.2.mpr ?_⟩
  rw [ht]
  decide

/-- The title gets into the comment of a client as it stands, and the comment closes early. -/
theorem exists_comment_not_closes :
    ∃ plan, Plan.ofDocument (titled "Pets */ and others") = .ok plan ∧
      ∃ comment ∈ commentsOf (TypeScriptClient.sourceCode (TypeScriptClient.sourceOf plan)),
        comment = "/** Pets */ and others client over HTTP. */" ∧
          ¬ Comment.ClosesOnce comment := by
  have hf : ((Plan.ofDocument (titled "Pets */ and others")).toOption.map fun plan ↦
      (plan.interface.info.title, plan.transports)) = some ("Pets */ and others", [.http]) := by
    decide +kernel
  obtain ⟨plan, hp, hi⟩ := exists_ok_of_map_toOption hf
  obtain ⟨ht, hh⟩ := Prod.mk.inj hi
  have hc : TypeScriptClient.clientOf plan .http ∈ (TypeScriptClient.sourceOf plan).clients :=
    List.mem_map_of_mem (hh ▸ .head _)
  have hw : CodeWriter.IndentsByBlanks { unit := TypeScriptClient.indentation } :=
    CodeWriter.indentsByBlanks_of_all (by decide)
  have hm := TypeScriptClient.finds_sourceCode (.fresh hp) hc (by rw [ht]; decide) _ [] hw
  have hs : (TypeScriptClient.clientOf plan .http).transport = .http := rfl
  have ho : "/** " ++ ("Pets */ and others" ++ " client over " ++ Transport.http.classSuffix ++
      ".") ++ " */" = "/** Pets */ and others client over HTTP. */" := by decide +kernel
  have he : "/** Pets */ and others client over HTTP. */" =
      String.ofList ("/** Pets */ and others client over HTTP. ".toList ++ ['*', '/']) := by
    decide +kernel
  rw [List.append_nil, ht, hs, ho] at hm
  refine ⟨plan, hp, _, hm, rfl, ?_⟩
  rw [he, Code.closesOnce_ofList_iff]
  decide +kernel

end TypeScriptPackage

end RpcForge
