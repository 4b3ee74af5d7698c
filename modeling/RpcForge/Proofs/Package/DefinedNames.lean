import RpcForge.Proofs.Client.Plan
import RpcForge.Proofs.Interface.Definitions
import RpcForge.Proofs.Interface.ModelNames
import RpcForge.Proofs.Naming
import RpcForge.Proofs.Package.ModelCode

/-!
# Names of models in generated sources

A model is defined under the key that its schema has in the document, and it is referred to under
the same name. Keys may have points and hyphens and begin with a digit, which names in the target
languages may not.
-/

namespace RpcForge

open TypeGrammar (IsName)

namespace Naming

/-- A text is a name in a target language; in Python reserved words are none. -/
structure LegalName (l : Language) (name : String) : Prop where
  /-- The text is an identifier. -/
  identifier : IsIdentifier name
  /-- It is no reserved word. -/
  unreserved : l = .python → name ∉ pythonKeywords

/-- A key of a document can be a name in a target language as it is. -/
structure FitsAsName (l : Language) (key : String) : Prop where
  /-- No points. -/
  noPoint : '.' ∉ key.toList
  /-- No hyphens. -/
  noHyphen : '-' ∉ key.toList
  /-- No digit comes first. -/
  start : ∀ c ∈ key.toList.head?, c.isDigit = false
  /-- No reserved word of Python. -/
  unreserved : l = .python → key ∉ pythonKeywords

/-- Among the texts that may be keys, names are those without points and hyphens that do not begin
with a digit. -/
private theorem legalName_iff (l : Language) {key : String} (h : IsName key.toList) :
    LegalName l key ↔ FitsAsName l key := by
  constructor
  · rintro ⟨hi, hu⟩
    have hc := hi.forall_mem
    obtain ⟨c, cs, hk, hs, -⟩ := hi
    refine ⟨fun hm ↦ by simpa using hc _ hm, fun hm ↦ by simpa using hc _ hm, ?_, hu⟩
    rw [hk]
    rintro _ ⟨⟩
    rcases hs with hs | rfl
    · exact isDigit_eq_false_of_isAlpha hs
    · decide
  · rintro ⟨hp, hh, hs, hu⟩
    have hc : ∀ c ∈ key.toList, c.isAlphanum = true ∨ c = '_' := by
      intro c hm
      have hk := h.2 c hm
      have hne : c ≠ '.' ∧ c ≠ '-' := ⟨fun he ↦ hp (he ▸ hm), fun he ↦ hh (he ▸ hm)⟩
      simpa [Wellformed.isKeyChar, hne] using hk
    obtain ⟨c, cs, hk⟩ := List.exists_cons_of_ne_nil h.1
    rw [hk] at hc hs
    refine ⟨⟨c, cs, hk, ?_, fun d hd ↦ hc d (.tail _ hd)⟩, hu⟩
    simpa [Char.isAlphanum, hs c rfl] using hc c (.head _)

end Naming

namespace Package

open Naming (LegalName FitsAsName)

/-- For a document that is accepted, the file with the models defines just the names that the
document gives to schemas. They all are legal exactly if every such name fits as it is. Types refer
to models under the names that are defined. -/
theorem definedNames_legal_iff {document : Document} {plan : Plan}
    (accepted : Interface.ofDocument document = .ok plan.interface) (l : Language) :
    (∃ body, modelCode l plan = modelHead l plan ++ body ++ modelTail l plan ∧
      List.Forall₂ (Defines l) (plan.definedNames l) (body.filter (isDefinition l))) ∧
    (plan.definedNames l).Perm (Entries.keys document.definitions).eraseDups ∧
    ((∀ name ∈ plan.definedNames l, LegalName l name) ↔
      ∀ key ∈ Entries.keys document.definitions, FitsAsName l key) ∧
    ∀ meaning, plan.interface.Typed meaning →
      Piece.textOf (TypeExpr.pieces l (TypeExpr.ofMeaning l meaning)) = TypeExpr.typeOf l meaning ∧
      ∀ name, .model name ∈ TypeExpr.pieces l (TypeExpr.ofMeaning l meaning) →
        name ∈ plan.definedNames l := by
  have hd := plan.definedNames_perm l
  have hk : plan.interface.models.names = (Entries.keys document.definitions).eraseDups := by
    rw [← document.names_models]
    have he := ((Interface.ofDocument_eq_ok_iff _ _).mp accepted).2.2.1
    rw [he, Interface.withOperations]
  have hn := Interface.named_of_ofDocument accepted
  refine ⟨defines_modelCode l plan, hk ▸ hd, ?_, fun meaning typed ↦ ?_⟩
  · simp only [hd.mem_iff]
    rw [forall₂_congr fun name hm ↦ Naming.legalName_iff l (hn name hm)]
    simp only [hk, List.mem_eraseDups]
  · refine ⟨TypeExpr.textOf_pieces l _, fun name hm ↦ ?_⟩
    rw [hd.mem_iff]
    simpa [Models.contains] using typed.contains_of_mem_pieces accepted hm

/-- A document with a schema under a key, and a method that takes what the schema describes. -/
def naming (key : String) : Document where
  openrpc := "1.3.2"
  info := { title := "Clash", version := "1" }
  methods := [.inline {
    name := "find"
    params := [.inline {
      name := "model"
      schema := .schema { keywords := { reference := some (Reference.schema key).pointer } } }] }]
  components := some { schemas := some [(key, {})] }

/-- A key that is a name is legal in both languages. -/
theorem definedNames_legal_point :
    ∃ plan, Plan.ofDocument (naming "Point") = .ok plan ∧
      ∀ l, plan.definedNames l = ["Point"] ∧ ∀ name ∈ plan.definedNames l, LegalName l name := by
  have hf : ((Plan.ofDocument (naming "Point")).toOption.map fun _ ↦ ()) = some () := by
    decide +kernel
  obtain ⟨plan, hp, -⟩ := exists_ok_of_map_toOption hf
  have accepted := (Plan.MadeFor.fresh hp).made.1
  refine ⟨plan, hp, fun l ↦ ?_⟩
  obtain ⟨-, hn, hl, -⟩ := definedNames_legal_iff accepted l
  refine ⟨List.perm_singleton.mp hn, hl.mpr ?_⟩
  rintro _ (_ | ⟨_, ⟨⟩⟩)
  exact ⟨by decide, by decide, by simp, fun _ ↦ by decide⟩

/-- Keys with a hyphen are defined as they are, and in Python so are reserved words. -/
theorem exists_definedName_not_legal :
    (∃ plan, Plan.ofDocument (naming "my-model") = .ok plan ∧
      ∀ l, "my-model" ∈ plan.definedNames l ∧ ¬ LegalName l "my-model") ∧
    ∃ plan, Plan.ofDocument (naming "class") = .ok plan ∧
      "class" ∈ plan.definedNames .python ∧ ¬ LegalName .python "class" := by
  have hh : ((Plan.ofDocument (naming "my-model")).toOption.map fun plan ↦
      plan.interface.models.names) = some ["my-model"] := by decide +kernel
  have hc : ((Plan.ofDocument (naming "class")).toOption.map fun plan ↦
      plan.interface.models.names) = some ["class"] := by decide +kernel
  obtain ⟨plan, hp, hn⟩ := exists_ok_of_map_toOption hh
  obtain ⟨plan', hp', hn'⟩ := exists_ok_of_map_toOption hc
  refine ⟨⟨plan, hp, fun l ↦ ⟨?_, fun h ↦ ?_⟩⟩, plan', hp', ?_, fun h ↦ ?_⟩
  · simp [(plan.definedNames_perm l).mem_iff, hn]
  · simpa using h.identifier.forall_mem '-' (by decide)
  · simp [(plan'.definedNames_perm .python).mem_iff, hn']
  · exact h.unreserved rfl (by decide)

end Package

end RpcForge
