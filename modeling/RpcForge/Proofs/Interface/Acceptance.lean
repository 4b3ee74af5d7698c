import RpcForge.Interface.Basic
import RpcForge.Proofs.Interface.Resolution

/-!
# Accepting documents

Which documents describe an interface, and which error the others end in. A document is refused for
the first of three reasons: it breaks a rule, one of its methods cannot be resolved, or a model that
is referred to is not there.
-/

namespace RpcForge.Interface

open RpcForge.Operation

/-- All models that a meaning refers to are there. -/
def Covered (models : Models) (meaning : Meaning) : Prop :=
  ∀ name ∈ meaning.references, models.contains name = true

/-- A name is the first one in a meaning that no model has. -/
def FirstMissing (models : Models) (meaning : Meaning) (name : String) : Prop :=
  ∃ before after, meaning.references = before ++ name :: after ∧
    (∀ other ∈ before, models.contains other = true) ∧ models.contains name = false

/-- The interface with given operations that a document describes otherwise. -/
def withOperations (document : Document) (operations : List Operation) : Interface where
  info := .ofInfo document.info
  endpoints := document.effectiveServers.map fun server ↦ ⟨server.name, server.resolveUrl⟩
  operations := operations
  models := .ofComponents document.components

/-- What a document has to obey in order to describe an interface. -/
structure Acceptable (document : Document) : Prop where
  /-- Its parts obey their rules. -/
  valid : document.check = .ok ()
  /-- All methods are written out. -/
  inline : ∀ entry ∈ document.methods, ∃ method, entry = .inline method
  /-- All places of the methods stand for descriptors. -/
  resolved : ∀ method, .inline method ∈ document.methods → ∀ d ∈ descriptorPlaces method,
    ∃ descriptor, Resolves document.components d descriptor
  /-- All models that the descriptors refer to are there. -/
  described : ∀ method, .inline method ∈ document.methods → ∀ d ∈ descriptorPlaces method,
    ∀ descriptor, Resolves document.components d descriptor →
      Covered (.ofComponents document.components) (Meaning.ofPosition descriptor.schema)
  /-- All models that models refer to are there. -/
  modelled : ∀ model ∈ (Models.ofComponents document.components).toList,
    Covered (.ofComponents document.components) model.meaning

/-- Why a document describes no interface, with the error that says so. -/
inductive Fault (document : Document) : GenerationError → Prop
  /-- The document breaks a rule. -/
  | invalid {e : DocumentError} (broken : document.check = .error e) : Fault document (.document e)
  /-- It breaks none, and the first entry of its methods of which no operation can be made is
  faulty. -/
  | method {before after : List MethodOrReference} {entry : MethodOrReference} {e : GenerationError}
      (valid : document.check = .ok ()) (methods_eq : document.methods = before ++ entry :: after)
      (usable : ∀ other ∈ before, ∃ operation, Describes document.components other operation)
      (faulty : Faulty document.components entry e) : Fault document e
  /-- It breaks none and has all its operations, and at the first place that refers to a model which
  is not there, the name is the first such one. -/
  | undefined {operations : List Operation} {before after : List (String × Meaning)}
      {place name : String} {meaning : Meaning} (valid : document.check = .ok ())
      (described : List.Forall₂ (Describes document.components) document.methods operations)
      (places_eq : (withOperations document operations).places =
        before ++ (place, meaning) :: after)
      (covered : ∀ other ∈ before, Covered (.ofComponents document.components) other.2)
      (missing : FirstMissing (.ofComponents document.components) meaning name) :
      Fault document (undefinedError place name)

/-! ## Models that are referred to -/

/-- No name is undefined exactly if all models are there. -/
theorem undefinedIn?_eq_none_iff (models : Models) (meaning : Meaning) :
    undefinedIn? models meaning = none ↔ Covered models meaning := by
  simp [undefinedIn?, Covered]

/-- The undefined name is the first one that no model has. -/
theorem undefinedIn?_eq_some_iff (models : Models) (meaning : Meaning) (name : String) :
    undefinedIn? models meaning = some name ↔ FirstMissing models meaning name := by
  rw [undefinedIn?, List.find?_eq_some_iff_append, FirstMissing]
  constructor
  · rintro ⟨hn, before, after, he, hb⟩
    exact ⟨before, after, he, by simpa using hb, by simpa using hn⟩
  · rintro ⟨before, after, he, hb, hn⟩
    exact ⟨by simpa using hn, before, after, he, by simpa using hb⟩

/-- The check passes exactly if all models that are referred to are there. -/
theorem checkReferences_eq_ok_iff (interface : Interface) :
    interface.checkReferences = .ok () ↔
      ∀ place ∈ interface.places, Covered interface.models place.2 := by
  simp only [← undefinedIn?_eq_none_iff]
  unfold checkReferences
  split
  · next e he =>
    obtain ⟨place, hp, hn⟩ := List.exists_of_findSome?_eq_some he
    refine iff_of_false (by simp) fun h ↦ ?_
    simp [h place hp] at hn
  · next he =>
    refine iff_of_true rfl fun place hp ↦ ?_
    simpa using List.findSome?_eq_none_iff.mp he place hp

/-- The check fails at the first place that refers to a model which is not there. -/
theorem checkReferences_eq_error_iff (interface : Interface) (e : GenerationError) :
    interface.checkReferences = .error e ↔ ∃ before place meaning after name,
      interface.places = before ++ (place, meaning) :: after ∧
        (∀ other ∈ before, Covered interface.models other.2) ∧
        FirstMissing interface.models meaning name ∧ e = undefinedError place name := by
  have hs : interface.checkReferences = .error e ↔
      interface.places.findSome? (fun place ↦
        (undefinedIn? interface.models place.2).map (undefinedError place.1)) = some e := by
    unfold checkReferences
    split
    · next other he =>
      constructor
      · intro h
        exact he.trans (congrArg some (Except.error.inj h))
      · intro h
        exact congrArg Except.error (Option.some.inj (he.symm.trans h))
    · next he => exact iff_of_false (by simp) fun h ↦ nomatch he.symm.trans h
  rw [hs, List.findSome?_eq_some_iff]
  simp only [← undefinedIn?_eq_none_iff, ← undefinedIn?_eq_some_iff]
  constructor
  · rintro ⟨before, ⟨place, meaning⟩, after, he, hu, hb⟩
    obtain ⟨name, hn, hu⟩ := Option.map_eq_some_iff.mp hu
    exact ⟨before, place, meaning, after, name, he, by simpa using hb, hn, hu.symm⟩
  · rintro ⟨before, place, meaning, after, name, he, hb, hn, rfl⟩
    exact ⟨before, (place, meaning), after, he, Option.map_eq_some_iff.mpr ⟨name, hn, rfl⟩,
      by simpa using hb⟩

/-! ## Models that methods refer to -/

/-- What holds of all elements of a list holds of all elements that another list has for them. -/
theorem forall_mem_iff_of_forall₂ {α β : Type} {R : α → β → Prop} {P : α → Prop} {Q : β → Prop}
    {as : List α} {bs : List β} (h : List.Forall₂ R as bs) (hpq : ∀ a b, R a b → (P a ↔ Q b)) :
    (∀ a ∈ as, P a) ↔ ∀ b ∈ bs, Q b := by
  induction h with
  | nil => simp
  | cons hr _ ih => rw [List.forall_mem_cons, List.forall_mem_cons, hpq _ _ hr, ih]

variable {components : Option Components} (models : Models)

/-- A parameter refers to the models that the descriptor of its place refers to. -/
private theorem covered_parameter_iff {d : DescriptorOrReference} {param : Parameter}
    (h : DescribesParameter components d param) :
    (∀ descriptor, Resolves components d descriptor →
        Covered models (Meaning.ofPosition descriptor.schema)) ↔ Covered models param.meaning := by
  obtain ⟨own, hr, rfl⟩ := h
  constructor
  · intro hc
    exact hc own hr
  · intro hc other ho
    obtain rfl := Except.ok.inj (ho.resolve_eq.symm.trans hr.resolve_eq)
    exact hc

/-- A result refers to the models that the descriptor of its place refers to, and to none where the
method has no result. -/
private theorem covered_result_iff {result : Option DescriptorOrReference} {param : Parameter}
    (h : DescribesResult components result param) :
    (∀ d ∈ result.toList, ∀ descriptor, Resolves components d descriptor →
        Covered models (Meaning.ofPosition descriptor.schema)) ↔ Covered models param.meaning := by
  cases result with
  | none =>
    obtain rfl : param = .nothing := h
    simp [Covered, Parameter.nothing, Meaning.references]
  | some d => simpa using covered_parameter_iff models h

/-- An operation refers to the models that the descriptors of its method refer to. -/
private theorem covered_operation_iff {entry : MethodOrReference} {operation : Operation}
    (h : Describes components entry operation) :
    (∀ method, entry = .inline method → ∀ d ∈ descriptorPlaces method,
        ∀ descriptor, Resolves components d descriptor →
          Covered models (Meaning.ofPosition descriptor.schema)) ↔
      ∀ place ∈ operationPlaces operation, Covered models place.2 := by
  obtain ⟨hp, hr⟩ := h
  have hps := forall_mem_iff_of_forall₂ hp fun _ _ h ↦ covered_parameter_iff models h
  simp only [OrReference.inline.injEq, forall_eq', descriptorPlaces, List.forall_mem_append, hps,
    covered_result_iff models hr, operationPlaces, List.forall_mem_map, List.forall_mem_singleton]

/-- The places of an interface refer to models that are there exactly if the descriptors and the
models of the document do. -/
private theorem covered_places_iff {document : Document} {operations : List Operation}
    (h : List.Forall₂ (Describes document.components) document.methods operations) :
    (∀ place ∈ (withOperations document operations).places, Covered models place.2) ↔
      (∀ method, .inline method ∈ document.methods → ∀ d ∈ descriptorPlaces method,
        ∀ descriptor, Resolves document.components d descriptor →
          Covered models (Meaning.ofPosition descriptor.schema)) ∧
      ∀ model ∈ (Models.ofComponents document.components).toList,
        Covered models model.meaning := by
  have ho := forall_mem_iff_of_forall₂ h fun _ _ h ↦ covered_operation_iff models h
  rw [places, List.forall_mem_append, List.forall_mem_map]
  refine and_congr ?_ Iff.rfl
  simp only [List.forall_mem_flatMap, withOperations, ← ho]
  exact ⟨fun h method hm ↦ h _ hm method rfl, fun h _ hm method he ↦ h method (he ▸ hm)⟩

/-! ## Documents -/

/-- A document becomes an interface in three steps, each of which has to succeed. -/
theorem ofDocument_eq_ok_iff (document : Document) (interface : Interface) :
    ofDocument document = .ok interface ↔ document.check = .ok () ∧
      List.Forall₂ (Describes document.components) document.methods interface.operations ∧
      interface = withOperations document interface.operations ∧
      interface.checkReferences = .ok () := by
  simp only [ofDocument, bind_eq_ok_iff, mapError_eq_ok_iff, mapM_eq_ok_iff, ofEntry_eq_ok_iff]
  constructor
  · rintro ⟨_, hv, operations, hd, _, hr, he⟩
    obtain rfl := Except.ok.inj he
    exact ⟨hv, hd, rfl, hr⟩
  · rintro ⟨hv, hd, he, hr⟩
    rw [he] at hr
    exact ⟨(), hv, interface.operations, hd, (), hr, congrArg Except.ok he.symm⟩

/-- The methods that become operations are written out, and their places stand for descriptors. -/
private theorem exists_described_iff (document : Document) :
    (∃ operations, List.Forall₂ (Describes document.components) document.methods operations) ↔
      (∀ entry ∈ document.methods, ∃ method, entry = .inline method) ∧
      ∀ method, .inline method ∈ document.methods → ∀ d ∈ descriptorPlaces method,
        ∃ descriptor, Resolves document.components d descriptor := by
  have hm : (∃ operations, document.methods.mapM (ofEntry document.components) = .ok operations) ↔
      ∀ entry ∈ document.methods, ∃ operation, ofEntry document.components entry = .ok operation :=
    exists_mapM_eq_ok_iff
  simp only [mapM_eq_ok_iff, ofEntry_eq_ok_iff] at hm
  simp only [hm, ← ofEntry_eq_ok_iff, exists_ofEntry_iff]
  constructor
  · intro h
    refine ⟨fun entry he ↦ ?_, fun method hm ↦ ?_⟩
    · obtain ⟨method, he, _⟩ := h entry he
      exact ⟨method, he⟩
    · obtain ⟨other, ho, hd⟩ := h _ hm
      obtain rfl := OrReference.inline.inj ho
      exact hd
  · rintro ⟨hi, hd⟩ entry he
    obtain ⟨method, rfl⟩ := hi entry he
    exact ⟨method, rfl, hd method he⟩

/-- A document becomes an interface exactly if it is acceptable. -/
private theorem exists_ofDocument_iff (document : Document) :
    (∃ interface, ofDocument document = .ok interface) ↔ Acceptable document := by
  simp only [ofDocument_eq_ok_iff, checkReferences_eq_ok_iff]
  constructor
  · rintro ⟨interface, hv, hd, he, hr⟩
    obtain ⟨hi, hs⟩ := (exists_described_iff document).mp ⟨_, hd⟩
    rw [he] at hr
    obtain ⟨hc, hm⟩ := (covered_places_iff _ hd).mp hr
    exact ⟨hv, hi, hs, hc, hm⟩
  · intro h
    obtain ⟨operations, hd⟩ := (exists_described_iff document).mpr ⟨h.inline, h.resolved⟩
    exact ⟨withOperations document operations, h.valid, hd, rfl,
      (covered_places_iff _ hd).mpr ⟨h.described, h.modelled⟩⟩

/-- A document that becomes no interface is at fault, and the first fault is the error. -/
theorem ofDocument_eq_error_iff (document : Document) (e : GenerationError) :
    ofDocument document = .error e ↔ Fault document e := by
  simp only [ofDocument, bind_eq_error_iff, mapError_eq_error_iff, mapError_eq_ok_iff,
    mapM_eq_error_iff, mapM_eq_ok_iff, ofEntry_eq_ok_iff, ofEntry_eq_error_iff]
  constructor
  · rintro (⟨own, hc, rfl⟩ | ⟨_, hv, h⟩)
    · exact .invalid hc
    · rcases h with ⟨before, entry, after, he, hb, hf⟩ | ⟨operations, hd, h⟩
      · exact .method hv he hb hf
      · rcases h with h | ⟨_, _, h⟩
        · obtain ⟨before, place, meaning, after, name, he, hb, hn, rfl⟩ :=
            (checkReferences_eq_error_iff _ _).mp h
          exact .undefined hv hd he hb hn
        · cases h
  · rintro (hc | ⟨hv, he, hb, hf⟩ | ⟨hv, hd, he, hb, hn⟩)
    · exact .inl ⟨_, hc, rfl⟩
    · exact .inr ⟨(), hv, .inl ⟨_, _, _, he, hb, hf⟩⟩
    · exact .inr ⟨(), hv, .inr ⟨_, hd, .inl <|
        (checkReferences_eq_error_iff _ _).mpr ⟨_, _, _, _, _, he, hb, hn, rfl⟩⟩⟩

/-- The operations have the names of the methods, in order. -/
theorem names_eq_of_described {methods : List MethodOrReference} {operations : List Operation}
    (h : List.Forall₂ (Describes components) methods operations) :
    operations.map Operation.name = methods.map MethodOrReference.key := by
  induction h with
  | nil => rfl
  | cons hd _ ih =>
    obtain ⟨_, _⟩ := hd
    rw [List.map_cons, List.map_cons, ih]
    rfl

/-- A document becomes an interface exactly if it is acceptable, and fails with its first fault
otherwise. The operations of the interface are what the methods describe, one for each in order and
under its name. -/
theorem ofDocument_outcome (document : Document) :
    ((∃ interface, ofDocument document = .ok interface) ↔ Acceptable document) ∧
      (∀ e, ofDocument document = .error e ↔ Fault document e) ∧
      ∀ interface, ofDocument document = .ok interface →
        List.Forall₂ (Describes document.components) document.methods interface.operations ∧
        interface.operations.map Operation.name = document.methods.map MethodOrReference.key ∧
        interface = withOperations document interface.operations := by
  refine ⟨exists_ofDocument_iff document, ofDocument_eq_error_iff document, fun interface h ↦ ?_⟩
  obtain ⟨_, hd, he, _⟩ := (ofDocument_eq_ok_iff _ _).mp h
  exact ⟨hd, names_eq_of_described hd, he⟩

/-- A document with a model `Point` and a method with a parameter from the components, which is said
to be a list of a given model. -/
def drawing (model : String) : Document where
  openrpc := "1.3.2"
  info := { title := "Drawing", version := "1" }
  methods := [.inline { name := "draw", params := [.reference (.descriptor "shape")] }]
  components := some {
    descriptors := some [("shape",
      { name := "shape"
        schema := .schema {
          keywords := { types := some (.single .array) }
          items := some (.each (.schema { keywords := { reference := some model } })) } })]
    schemas := some [("Point", {})] }

/-- The document is acceptable if the model is there, and at fault at its parameter if not. -/
theorem ofDocument_outcome_drawing :
    Acceptable (drawing "Point") ∧
      Fault (drawing "Line") (undefinedError "draw.shape" "Line") ∧
      ∃ interface, ofDocument (drawing "Point") = .ok interface ∧
        interface.operations.map Operation.name = ["draw"] := by
  have hp := ofDocument_outcome (drawing "Point")
  have hl := ofDocument_outcome (drawing "Line")
  exact ⟨hp.1.mp ⟨_, rfl⟩, (hl.2.1 _).mp rfl, _, rfl, (hp.2.2 _ rfl).2.1⟩

end RpcForge.Interface
