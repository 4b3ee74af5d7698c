import RpcForge.Interface.Operation
import RpcForge.Proofs.Except

/-!
# Resolving methods

Which descriptor a reference leads to and why it may lead nowhere, as relations, and the operation
that a method of a document becomes. Building an operation is compared with these relations: it
succeeds exactly if all descriptors can be resolved, and fails at the first that cannot.
-/

namespace RpcForge.Operation

/-- What a descriptor, or a reference to one of the components, stands for. -/
inductive Resolves (components : Option Components) : DescriptorOrReference → Descriptor → Prop
  /-- A descriptor that is written out stands for itself. -/
  | inline (descriptor : Descriptor) : Resolves components (.inline descriptor) descriptor
  /-- A reference stands for the content descriptor of the components under its name. -/
  | reference {r : Reference} {given : Components} {key : String} {descriptor : Descriptor}
      (is_given : components = some given)
      (parts : r.componentParts? = some (Reference.descriptorKind, key))
      (found : Entries.get? (given.descriptors.getD []) key = some descriptor) :
      Resolves components (.reference r) descriptor

/-- Why a reference stands for no descriptor, with the message that says so. -/
inductive Unresolved (components : Option Components) : Reference → String → Prop
  /-- There are no components. -/
  | missing {r : Reference} (is_missing : components = none) :
      Unresolved components r "document has no components"
  /-- The reference does not lead to a content descriptor of the components. -/
  | elsewhere {r : Reference} {given : Components} (is_given : components = some given)
      (parts : ∀ key, r.componentParts? ≠ some (Reference.descriptorKind, key)) :
      Unresolved components r
        (DocumentError.reference "expected a reference to components.contentDescriptors"
          r.pointer).message
  /-- There is no content descriptor under the name. -/
  | undefined {r : Reference} {given : Components} {key : String}
      (is_given : components = some given)
      (parts : r.componentParts? = some (Reference.descriptorKind, key))
      (not_found : Entries.get? (given.descriptors.getD []) key = none) :
      Unresolved components r
        (DocumentError.reference ("content descriptor '" ++ key ++ "' is not defined")
          r.pointer).message

/-- A parameter is what the descriptor of a place says. -/
def DescribesParameter (components : Option Components) (d : DescriptorOrReference)
    (param : Parameter) : Prop :=
  ∃ descriptor, Resolves components d descriptor ∧ param = .ofDescriptor descriptor

/-- A result is what its descriptor says, and nothing where there is none. -/
def DescribesResult (components : Option Components) (result : Option DescriptorOrReference)
    (param : Parameter) : Prop :=
  match result with
  | some d => DescribesParameter components d param
  | none => param = .nothing

/-- An operation is what a method that is written out says, with every descriptor in place. -/
inductive Describes (components : Option Components) : MethodOrReference → Operation → Prop
  /-- Name, texts and passing are those of the method; the parameters are in its order. -/
  | intro {method : Method} {params : List Parameter} {result : Parameter}
      (params_eq : List.Forall₂ (DescribesParameter components) method.params params)
      (result_eq : DescribesResult components method.result result) :
      Describes components (.inline method)
        { name := method.name
          summary := method.summary
          description := method.description
          params := params
          result := result
          passing := .ofStructure method.parameterStructure
          deprecated := method.isDeprecated }

/-- The places of a method where a descriptor or a reference stands: its parameters in order, and
then its result. -/
def descriptorPlaces (method : Method) : List DescriptorOrReference :=
  method.params ++ method.result.toList

/-- Why no operation can be made of an entry of the list of methods, with the error that says so. -/
inductive Faulty (components : Option Components) : MethodOrReference → GenerationError → Prop
  /-- Methods cannot be referred to. -/
  | reference (r : Reference) : Faulty components (.reference r)
      (.unsupported ("method references are not supported (" ++ r.pointer ++ ")"))
  /-- A place stands for no descriptor, and it is the first one. -/
  | unresolved {method : Method} {before after : List DescriptorOrReference} {r : Reference}
      {message : String} (places_eq : descriptorPlaces method = before ++ .reference r :: after)
      (resolved : ∀ d ∈ before, ∃ descriptor, Resolves components d descriptor)
      (unresolved : Unresolved components r message) :
      Faulty components (.inline method) (.unresolvedReference r.pointer message)

variable {components : Option Components}

/-! ## Descriptors -/

/-- A reference to a content descriptor is looked up under its name. -/
private theorem resolveDescriptor_of_parts (given : Components) {r : Reference} {key : String}
    (h : r.componentParts? = some (Reference.descriptorKind, key)) :
    given.resolveDescriptor r =
      match Entries.get? (given.descriptors.getD []) key with
      | some descriptor => .ok descriptor
      | none =>
        .error (.reference ("content descriptor '" ++ key ++ "' is not defined") r.pointer) := by
  cases hg : Entries.get? (given.descriptors.getD []) key with
  | none => simp [Components.resolveDescriptor, h, hg]
  | some descriptor => simp [Components.resolveDescriptor, h, hg]

/-- A reference to anything else is refused. -/
private theorem resolveDescriptor_elsewhere (given : Components) {r : Reference}
    (h : ∀ key, r.componentParts? ≠ some (Reference.descriptorKind, key)) :
    given.resolveDescriptor r =
      .error (.reference "expected a reference to components.contentDescriptors" r.pointer) := by
  unfold Components.resolveDescriptor
  split
  · next kind name hp =>
    split
    · next hk => exact absurd (hk ▸ hp) (h name)
    · rfl
  · rfl

/-- A place that stands for a descriptor is resolved to it. -/
theorem Resolves.resolve_eq {d : DescriptorOrReference} {descriptor : Descriptor}
    (h : Resolves components d descriptor) : resolve components d = .ok descriptor := by
  cases h with
  | inline => rfl
  | reference hc hp hg => simp [resolve, hc, resolveDescriptor_of_parts _ hp, hg, Except.mapError]

/-- A reference that stands for none fails with the message for it. -/
theorem Unresolved.resolve_eq {r : Reference} {message : String}
    (h : Unresolved components r message) :
    resolve components (.reference r) = .error (.unresolvedReference r.pointer message) := by
  cases h with
  | missing hc => simp [resolve, hc]
  | elsewhere hc hp => simp [resolve, hc, resolveDescriptor_elsewhere _ hp, Except.mapError]
  | undefined hc hp hg => simp [resolve, hc, resolveDescriptor_of_parts _ hp, hg, Except.mapError]

/-- A reference stands for a descriptor, or there is a reason why it does not. -/
private theorem resolves_or_unresolved (components : Option Components) (r : Reference) :
    (∃ descriptor, Resolves components (.reference r) descriptor) ∨
      ∃ message, Unresolved components r message := by
  cases components with
  | none => exact .inr ⟨_, .missing rfl⟩
  | some given =>
    by_cases hp : ∃ key, r.componentParts? = some (Reference.descriptorKind, key)
    · obtain ⟨key, hp⟩ := hp
      cases hg : Entries.get? (given.descriptors.getD []) key with
      | some descriptor => exact .inl ⟨descriptor, .reference rfl hp hg⟩
      | none => exact .inr ⟨_, .undefined rfl hp hg⟩
    · exact .inr ⟨_, .elsewhere rfl fun key he ↦ hp ⟨key, he⟩⟩

/-- Resolving gives what a descriptor or a reference stands for. -/
theorem resolve_eq_ok_iff (d : DescriptorOrReference) (descriptor : Descriptor) :
    resolve components d = .ok descriptor ↔ Resolves components d descriptor := by
  refine ⟨fun h ↦ ?_, Resolves.resolve_eq⟩
  cases d with
  | inline own =>
    obtain rfl := Except.ok.inj h
    exact .inline own
  | reference r =>
    rcases resolves_or_unresolved components r with ⟨other, ho⟩ | ⟨message, hu⟩
    · rw [ho.resolve_eq] at h
      exact Except.ok.inj h ▸ ho
    · rw [hu.resolve_eq] at h
      cases h

/-- Resolving fails for a reference that stands for nothing, and says why. -/
theorem resolve_eq_error_iff (d : DescriptorOrReference) (e : GenerationError) :
    resolve components d = .error e ↔ ∃ r message, d = .reference r ∧
      Unresolved components r message ∧ e = .unresolvedReference r.pointer message := by
  constructor
  · intro h
    cases d with
    | inline own => cases h
    | reference r =>
      rcases resolves_or_unresolved components r with ⟨other, ho⟩ | ⟨message, hu⟩
      · rw [ho.resolve_eq] at h
        cases h
      · rw [hu.resolve_eq] at h
        exact ⟨r, message, rfl, hu, (Except.error.inj h).symm⟩
  · rintro ⟨r, message, rfl, hu, rfl⟩
    exact hu.resolve_eq

/-! ## Parameters and results -/

/-- A parameter is made of what its place stands for. -/
theorem resolveParameter_eq_ok_iff (d : DescriptorOrReference) (param : Parameter) :
    resolveParameter components d = .ok param ↔ DescribesParameter components d param := by
  rw [resolveParameter, map_eq_ok_iff]
  constructor
  · rintro ⟨descriptor, hr, rfl⟩
    exact ⟨descriptor, (resolve_eq_ok_iff _ _).mp hr, rfl⟩
  · rintro ⟨descriptor, hr, rfl⟩
    exact ⟨descriptor, (resolve_eq_ok_iff _ _).mpr hr, rfl⟩

/-- A result is made of what its place stands for, if it has a place. -/
theorem resolveResult_eq_ok_iff (result : Option DescriptorOrReference) (param : Parameter) :
    resolveResult components result = .ok param ↔ DescribesResult components result param := by
  cases result with
  | none => simp [resolveResult, DescribesResult, eq_comm]
  | some d => exact resolveParameter_eq_ok_iff d param

/-- A place can be made a parameter if it stands for a descriptor. -/
private theorem exists_resolveParameter_iff (d : DescriptorOrReference) :
    (∃ param, resolveParameter components d = .ok param) ↔
      ∃ descriptor, Resolves components d descriptor := by
  simp only [resolveParameter_eq_ok_iff, DescribesParameter]
  constructor
  · rintro ⟨param, descriptor, hr, _⟩
    exact ⟨descriptor, hr⟩
  · rintro ⟨descriptor, hr⟩
    exact ⟨_, descriptor, hr, rfl⟩

/-! ## Methods -/

/-- The operation of an entry is the one that the method describes. -/
theorem ofEntry_eq_ok_iff (entry : MethodOrReference) (operation : Operation) :
    ofEntry components entry = .ok operation ↔ Describes components entry operation := by
  cases entry with
  | reference r =>
    constructor
    · intro h
      cases h
    · rintro ⟨⟩
  | inline method =>
    rw [ofEntry, ofMethod, bind_eq_ok_iff]
    constructor
    · rintro ⟨params, hp, h⟩
      obtain ⟨result, hr, h⟩ := bind_eq_ok_iff.mp h
      obtain rfl := Except.ok.inj h
      refine .intro ?_ ((resolveResult_eq_ok_iff _ _).mp hr)
      exact (mapM_eq_ok_iff.mp hp).imp fun d param ↦ (resolveParameter_eq_ok_iff d param).mp
    · rintro (⟨hp, hr⟩ : Describes _ _ _)
      refine ⟨_, mapM_eq_ok_iff.mpr (hp.imp fun d p ↦ (resolveParameter_eq_ok_iff d p).mpr), ?_⟩
      exact bind_eq_ok_iff.mpr ⟨_, (resolveResult_eq_ok_iff _ _).mpr hr, rfl⟩

/-- A method fails where its places in their order do. -/
theorem ofMethod_eq_error_iff (method : Method) (e : GenerationError) :
    ofMethod components method = .error e ↔
      (descriptorPlaces method).mapM (resolveParameter components) = .error e := by
  rw [ofMethod, descriptorPlaces, List.mapM_append, bind_eq_error_iff, bind_eq_error_iff]
  refine or_congr_right (exists_congr fun params ↦ and_congr_right fun _ ↦ ?_)
  rw [bind_eq_error_iff, bind_eq_error_iff]
  cases method.result with
  | none => simp [resolveResult, pure, Except.pure]
  | some d => simp [resolveResult, bind_eq_error_iff, pure, Except.pure]

/-- An entry becomes an operation exactly if it is written out and all its places stand for
descriptors. -/
theorem exists_ofEntry_iff (entry : MethodOrReference) :
    (∃ operation, ofEntry components entry = .ok operation) ↔
      ∃ method, entry = .inline method ∧
        ∀ d ∈ descriptorPlaces method, ∃ descriptor, Resolves components d descriptor := by
  cases entry with
  | reference r => simp [ofEntry]
  | inline method =>
    have hm : (∃ operation, ofMethod components method = .ok operation) ↔
        ∃ params, (descriptorPlaces method).mapM (resolveParameter components) = .ok params := by
      simp only [exists_eq_ok_iff, ne_eq, ofMethod_eq_error_iff]
    simp only [ofEntry, hm, exists_mapM_eq_ok_iff, exists_resolveParameter_iff,
      OrReference.inline.injEq, exists_eq_left']

/-- An entry that becomes no operation is faulty, and the fault is the error. -/
theorem ofEntry_eq_error_iff (entry : MethodOrReference) (e : GenerationError) :
    ofEntry components entry = .error e ↔ Faulty components entry e := by
  cases entry with
  | reference r =>
    constructor
    · intro h
      obtain rfl := Except.error.inj h
      exact .reference r
    · rintro ⟨⟩
      rfl
  | inline method =>
    rw [ofEntry, ofMethod_eq_error_iff, mapM_eq_error_iff]
    simp only [exists_resolveParameter_iff]
    simp only [resolveParameter, map_eq_error_iff, resolve_eq_error_iff]
    constructor
    · rintro ⟨before, d, after, he, hb, r, message, rfl, hu, rfl⟩
      exact .unresolved he hb hu
    · rintro (_ | ⟨he, hb, hu⟩)
      exact ⟨_, _, _, he, hb, _, _, rfl, hu, rfl⟩

end RpcForge.Operation
