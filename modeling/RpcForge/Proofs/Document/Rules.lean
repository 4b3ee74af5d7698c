import RpcForge.Document.Basic
import RpcForge.Proofs.Document.SchemaRules

/-!
# Rules for documents

What every part of a document has to obey, from the texts at its leaves up to the document. For each
kind of part the check passes exactly if the rules hold, so a document passes exactly if the rules
hold for it and for all parts in it.
-/

namespace RpcForge

open Wellformed

/-! ## About the interface -/

/-- The rules for whom to ask. -/
@[mk_iff] structure Contact.Valid (contact : Contact) : Prop where
  /-- A given address is one. -/
  url : ∀ url ∈ contact.url, IsUrl url
  /-- A given mail address is one. -/
  email : ∀ email ∈ contact.email, IsEmail email
  /-- Further members are extensions. -/
  extensions : contact.extensions.Valid

/-- The rules for the terms of an interface. -/
@[mk_iff] structure License.Valid (license : License) : Prop where
  /-- The terms have a name. -/
  name : license.name ≠ ""
  /-- A given address is one. -/
  url : ∀ url ∈ license.url, IsUrl url
  /-- Further members are extensions. -/
  extensions : license.extensions.Valid

/-- The rules for what a document says about the interface as a whole. -/
@[mk_iff] structure Info.Valid (info : Info) : Prop where
  /-- The title is filled. -/
  title : IsFilled info.title
  /-- The version is filled. -/
  version : IsFilled info.version
  /-- A given address of the terms of service is one. -/
  termsOfService : ∀ url ∈ info.termsOfService, IsUrl url
  /-- Whom to ask obeys the rules. -/
  contact : ∀ contact ∈ info.contact, contact.Valid
  /-- The terms obey the rules. -/
  license : ∀ license ∈ info.license, license.Valid
  /-- Further members are extensions. -/
  extensions : info.extensions.Valid

theorem Contact.check_eq_ok_iff (contact : Contact) : contact.check = .ok () ↔ contact.Valid := by
  simp [check, valid_iff, checkUrl_eq_ok_iff, checkEmail_eq_ok_iff, Extensions.check_eq_ok_iff]

theorem License.check_eq_ok_iff (license : License) : license.check = .ok () ↔ license.Valid := by
  simp [check, valid_iff, checkUrl_eq_ok_iff, Extensions.check_eq_ok_iff]

theorem Info.checkFilled_eq_ok_iff (field text : String) :
    checkFilled field text = .ok () ↔ IsFilled text := by
  simp [checkFilled, ← isBlankText_eq_false_iff]

theorem Info.check_eq_ok_iff (info : Info) : info.check = .ok () ↔ info.Valid := by
  simp [check, valid_iff, checkFilled_eq_ok_iff, checkUrl_eq_ok_iff, Contact.check_eq_ok_iff,
    License.check_eq_ok_iff, Extensions.check_eq_ok_iff]

/-! ## Servers -/

/-- The rules for a variable in the address of a server. -/
@[mk_iff] structure ServerVariable.Valid (v : ServerVariable) : Prop where
  /-- The default is among the values that are allowed, if they are given. -/
  default : ∀ values ∈ v.enum, v.default ∈ values
  /-- Further members are extensions. -/
  extensions : v.extensions.Valid

/-- The rules for a server. -/
@[mk_iff] structure Server.Valid (server : Server) : Prop where
  /-- The server has a name. -/
  name : server.name ≠ ""
  /-- The server has an address. -/
  url : server.url ≠ ""
  /-- Its variables have names and obey the rules. -/
  urlVariables : ∀ entry ∈ server.urlVariables.getD [], entry.1 ≠ "" ∧ entry.2.Valid
  /-- Further members are extensions. -/
  extensions : server.extensions.Valid

theorem ServerVariable.check_eq_ok_iff (v : ServerVariable) : v.check = .ok () ↔ v.Valid := by
  have hd : v.checkDefault = .ok () ↔ ∀ values ∈ v.enum, v.default ∈ values := by
    unfold checkDefault
    cases v.enum with
    | none => simp
    | some values => by_cases h : v.default ∈ values <;> simp [h]
  simp [check, valid_iff, hd, Extensions.check_eq_ok_iff]

theorem Server.check_eq_ok_iff (server : Server) : server.check = .ok () ↔ server.Valid := by
  simp [check, checkVariable, valid_iff, ServerVariable.check_eq_ok_iff,
    Extensions.check_eq_ok_iff]

/-! ## Methods -/

/-- The rules for a parameter or a result. -/
@[mk_iff] structure Descriptor.Valid (descriptor : Descriptor) : Prop where
  /-- The name is unbroken. -/
  name : IsUnbroken descriptor.name
  /-- A schema obeys the rules. -/
  schema : ∀ s, descriptor.schema = .schema s → s.Valid
  /-- Further members are extensions. -/
  extensions : descriptor.extensions.Valid

/-- What is written out obeys rules of its own, and a reference those for references. -/
def OrReference.Valid {α : Type} (IsValid : α → Prop) : OrReference α → Prop
  | .inline a => IsValid a
  | .reference r => r.Valid

/-- What is written out is what is no reference, in order. -/
private theorem OrReference.map_inline_filterMap_inline? {α : Type}
    (entries : List (OrReference α)) :
    (entries.filterMap inline?).map inline = entries.filter (·.inline?.isSome) := by
  induction entries with
  | nil => rfl
  | cons entry entries ih =>
    cases entry with
    | inline a => exact congrArg (inline a :: ·) ih
    | reference r => exact ih

/-- The parameters that are written out are those that are no references, in order. -/
theorem Method.map_inline_inlineParams (method : Method) :
    method.inlineParams.map OrReference.inline = method.params.filter (·.inline?.isSome) :=
  OrReference.map_inline_filterMap_inline? method.params

/-- The rules for a method. -/
@[mk_iff] structure Method.Valid (method : Method) : Prop where
  /-- The name is one of a method. -/
  name : IsMethodName method.name
  /-- Parameters differ in their names, and in their pointers where they are references. -/
  distinct : (method.params.map DescriptorOrReference.key).Nodup
  /-- Parameters obey the rules. -/
  params : ∀ d ∈ method.params, d.Valid Descriptor.Valid
  /-- If a parameter that is written out has to be given, so has each one before it. -/
  ordered : method.inlineParams.Pairwise fun d d' ↦ d'.isRequired = true → d.isRequired = true
  /-- A result obeys the rules. -/
  result : ∀ d ∈ method.result, d.Valid Descriptor.Valid
  /-- Servers obey the rules. -/
  servers : ∀ server ∈ method.servers.getD [], server.Valid
  /-- Further members are extensions. -/
  extensions : method.extensions.Valid

theorem Descriptor.check_eq_ok_iff (descriptor : Descriptor) :
    descriptor.check = .ok () ↔ descriptor.Valid := by
  simp [check, valid_iff, checkDescriptorName_eq_ok_iff, Schema.checkPosition_eq_ok_iff,
    Schema.check_eq_ok_iff, Extensions.check_eq_ok_iff]

theorem OrReference.check_eq_ok_iff {α : Type} {checkInline : α → Check} {IsValid : α → Prop}
    (h : ∀ a, checkInline a = .ok () ↔ IsValid a) (entry : OrReference α) :
    entry.check checkInline = .ok () ↔ entry.Valid IsValid := by
  cases entry with
  | inline a => exact h a
  | reference r => exact r.check_eq_ok_iff

/-- No parameter is misplaced if none has to be given behind one that need not be. -/
theorem Method.misplaced?_eq_none_iff (seenOptional : Bool) (descriptors : List Descriptor) :
    misplaced? seenOptional descriptors = none ↔
      (seenOptional = true → ∀ d ∈ descriptors, d.isRequired = false) ∧
        descriptors.Pairwise fun d d' ↦ d'.isRequired = true → d.isRequired = true := by
  induction descriptors generalizing seenOptional with
  | nil => simp [misplaced?]
  | cons d rest ih =>
    cases hr : d.isRequired with
    | false =>
      -- Behind an optional parameter all are optional, whatever stands before it.
      simpa [misplaced?, ih, hr] using fun h _ _ ↦ h
    | true =>
      cases seenOptional with
      | false => simp [misplaced?, ih, hr]
      | true => simp [misplaced?, hr]

theorem Method.check_eq_ok_iff (method : Method) : method.check = .ok () ↔ method.Valid := by
  have ho : method.checkOrder = .ok () ↔
      method.inlineParams.Pairwise fun d d' ↦ d'.isRequired = true → d.isRequired = true := by
    have hm := misplaced?_eq_none_iff false method.inlineParams
    unfold checkOrder
    cases h : misplaced? false method.inlineParams with
    | none => simpa [h] using hm
    | some d => simpa [h] using hm
  simp [check, valid_iff, checkMethodName_eq_ok_iff, checkDistinct_eq_ok_iff, ho,
    OrReference.check_eq_ok_iff Descriptor.check_eq_ok_iff, Server.check_eq_ok_iff,
    Extensions.check_eq_ok_iff]

/-! ## Documents -/

/-- The schemas that components name are those that they list, if they list any. -/
theorem Components.mem_namedSchemas_iff (components : Components) (entry : String × Schema) :
    entry ∈ components.namedSchemas ↔ ∃ schemas ∈ components.schemas, entry ∈ schemas := by
  cases h : components.schemas <;> simp [namedSchemas, h]

/-- The rules for what other parts of a document refer to. -/
@[mk_iff] structure Components.Valid (components : Components) : Prop where
  /-- Descriptors have well-formed names and obey the rules. -/
  descriptors : ∀ entry ∈ components.descriptors.getD [],
    TypeGrammar.IsName entry.1.toList ∧ entry.2.Valid
  /-- Schemas have well-formed names and obey the rules. -/
  schemas : ∀ entry ∈ components.namedSchemas,
    TypeGrammar.IsName entry.1.toList ∧ entry.2.Valid
  /-- Further members are extensions. -/
  extensions : components.extensions.Valid

/-- The rules for a document. -/
@[mk_iff] structure Document.Valid (document : Document) : Prop where
  /-- The version of the format is supported. -/
  version : document.openrpc ∈ supportedVersions
  /-- What is said about the interface obeys the rules. -/
  info : document.info.Valid
  /-- Servers obey the rules. -/
  servers : ∀ server ∈ document.servers.getD [], server.Valid
  /-- Methods obey the rules. -/
  methods : ∀ entry ∈ document.methods, entry.Valid Method.Valid
  /-- Methods differ in their names, and in their pointers where they are references. -/
  distinct : (document.methods.map MethodOrReference.key).Nodup
  /-- Components obey the rules. -/
  components : ∀ components ∈ document.components, components.Valid
  /-- Further members are extensions. -/
  extensions : document.extensions.Valid

theorem Components.check_eq_ok_iff (components : Components) :
    components.check = .ok () ↔ components.Valid := by
  simp [check, checkEntry, valid_iff, checkComponentKey_eq_ok_iff, Descriptor.check_eq_ok_iff,
    Schema.check_eq_ok_iff, Extensions.check_eq_ok_iff]

/-- A document passes the check exactly if it is valid. -/
theorem Document.check_iff_valid (document : Document) :
    document.check = .ok () ↔ document.Valid := by
  simp [check, valid_iff, checkFormatVersion_eq_ok_iff, Info.check_eq_ok_iff,
    Server.check_eq_ok_iff, OrReference.check_eq_ok_iff Method.check_eq_ok_iff,
    checkDistinct_eq_ok_iff, Components.check_eq_ok_iff, Extensions.check_eq_ok_iff]

end RpcForge
