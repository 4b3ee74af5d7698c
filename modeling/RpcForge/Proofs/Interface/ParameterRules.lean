import RpcForge.Proofs.Document.Rules
import RpcForge.Proofs.Interface.Acceptance

/-!
# Order of parameters

A document is checked before its references are resolved, so the rules for the parameters of a
method are enforced between those that are written out. Between a reference and another parameter
they hold for the operation exactly if they hold for what the two places stand for.
-/

namespace RpcForge

/-- A document that passes the check has methods that obey their rules. -/
private theorem Document.valid_method {document : Document} (h : document.check = .ok ())
    {method : Method} (hm : .inline method ∈ document.methods) : method.Valid := by
  simp only [check, Check.first_cons_eq_ok_iff, Check.indexed_eq_ok_iff] at h
  exact method.check_eq_ok_iff.mp (h.2.2.2.1 _ hm)

namespace Operation

/-- The rules for the parameters of a method, asked of the parameters of an operation. -/
@[mk_iff] structure Orderly (operation : Operation) : Prop where
  /-- Parameters differ in their names. -/
  distinct : (operation.params.map Parameter.name).Nodup
  /-- If a parameter has to be given, so has each one before it. -/
  ordered : operation.params.Pairwise fun p p' ↦ p'.required = true → p.required = true

/-- What two places stand for obeys the rules, if the first place is before the second one. -/
def Fits (components : Option Components) (d d' : DescriptorOrReference) : Prop :=
  ∀ descriptor descriptor', Resolves components d descriptor →
    Resolves components d' descriptor' → descriptor.name ≠ descriptor'.name ∧
      (descriptor'.isRequired = true → descriptor.isRequired = true)

variable {components : Option Components}

/-- A relation between earlier and later elements carries over to what the elements are related
to. -/
private theorem pairwise_iff_of_forall₂ {α β : Type} {R : α → β → Prop} {P : α → α → Prop}
    {Q : β → β → Prop} {as : List α} {bs : List β} (h : List.Forall₂ R as bs)
    (hpq : ∀ a a' b b', R a b → R a' b' → (P a a' ↔ Q b b')) : as.Pairwise P ↔ bs.Pairwise Q := by
  induction h with
  | nil => simp
  | @cons a b as bs hr hrs ih =>
    have hall : (∀ a' ∈ as, P a a') ↔ ∀ b' ∈ bs, Q b b' :=
      Interface.forall_mem_iff_of_forall₂ hrs fun a' b' h' ↦ hpq a a' b b' hr h'
    rw [List.pairwise_cons, List.pairwise_cons, hall, ih]

/-- The parameters of an operation obey the rules exactly if any two places do. -/
private theorem orderly_iff_pairwise_fits {method : Method} {operation : Operation}
    (h : Describes components (.inline method) operation) :
    operation.Orderly ↔ method.params.Pairwise (Fits components) := by
  obtain ⟨hp, -⟩ := h
  rw [orderly_iff, List.Nodup, List.pairwise_map, ← List.pairwise_and_iff]
  refine (pairwise_iff_of_forall₂ hp ?_).symm
  rintro d d' _ _ ⟨own, ho, rfl⟩ ⟨own', ho', rfl⟩
  constructor
  · exact fun hf ↦ hf own own' ho ho'
  · intro hf other other' hr hr'
    obtain rfl := Except.ok.inj (ho.resolve_eq.symm.trans hr.resolve_eq)
    obtain rfl := Except.ok.inj (ho'.resolve_eq.symm.trans hr'.resolve_eq)
    exact hf

/-- In a valid method the rules hold between descriptors that are written out. -/
private theorem pairwise_fits_of_valid (components : Option Components) {method : Method}
    (h : method.Valid) :
    method.params.Pairwise fun d d' ↦
      d.inline? ≠ none → d'.inline? ≠ none → Fits components d d' := by
  have hd := List.pairwise_map.mp h.distinct
  have ho := List.pairwise_filterMap.mp h.ordered
  refine (hd.and ho).imp ?_
  rintro (own | _) (own' | _) ⟨hn, hr⟩ hi hi'
  · rintro _ _ ⟨⟩ ⟨⟩
    exact ⟨hn, hr own rfl own' rfl⟩
  · exact absurd rfl hi'
  · exact absurd rfl hi
  · exact absurd rfl hi

/-- The parameters of a valid method obey the rules exactly if any two places do of which one holds
a reference. -/
private theorem orderly_iff_of_valid {method : Method} {operation : Operation} (hv : method.Valid)
    (h : Describes components (.inline method) operation) :
    operation.Orderly ↔ method.params.Pairwise fun d d' ↦
      d.inline? = none ∨ d'.inline? = none → Fits components d d' := by
  rw [orderly_iff_pairwise_fits h]
  constructor
  · intro hf
    refine hf.imp ?_
    exact fun hd _ ↦ hd
  · intro hr
    refine (hr.and (pairwise_fits_of_valid components hv)).imp ?_
    rintro d d' ⟨hr, hi⟩
    by_cases hn : d.inline? = none ∨ d'.inline? = none
    · exact hr hn
    · rw [not_or] at hn
      exact hi hn.1 hn.2

end Operation

namespace Interface

open Operation

/-- Every operation of an interface is that of a method which is written out. Its parameters obey
the rules for methods exactly if any two places of the method do of which one holds a reference. -/
theorem orderly_operations {document : Document} {interface : Interface}
    (h : ofDocument document = .ok interface) :
    List.Forall₂ (fun entry operation ↦ ∃ method, entry = .inline method ∧
      (operation.Orderly ↔ method.params.Pairwise fun d d' ↦
        d.inline? = none ∨ d'.inline? = none → Fits document.components d d'))
      document.methods interface.operations := by
  obtain ⟨hc, hd, -, -⟩ := (ofDocument_eq_ok_iff document interface).mp h
  have hv : ∀ entry ∈ document.methods, ∀ method, entry = .inline method → method.Valid :=
    fun _ he _ hm ↦ Document.valid_method hc (hm ▸ he)
  refine (List.forall₂_and_left _ _).mpr ⟨hv, hd⟩ |>.imp ?_
  rintro _ operation ⟨hv, ⟨hp, hr⟩⟩
  exact ⟨_, rfl, orderly_iff_of_valid (hv _ rfl) ⟨hp, hr⟩⟩

/-- A document with a method that takes two values from the components. The second one has a given
name, and it has to be given or not. -/
def scale (name : String) (required : Bool) : Document where
  openrpc := "1.3.2"
  info := { title := "Scale", version := "1" }
  methods := [.inline {
    name := "scale"
    params := [.reference (.descriptor "First"), .reference (.descriptor "Second")] }]
  components := some { descriptors := some [
    ("First", { name := "value", required := some false, schema := .flag true }),
    ("Second", { name := name, required := some required, schema := .flag true })] }

/-- Two optional values with names of their own obey the rules. -/
theorem orderly_operations_scale :
    ∃ interface, ofDocument (scale "factor" false) = .ok interface ∧
      ∀ operation ∈ interface.operations, operation.Orderly := by
  have h : ofDocument (scale "factor" false) = .ok _ := rfl
  refine ⟨_, h, ?_⟩
  obtain _ | ⟨⟨_, ⟨⟩, ho⟩, _ | _⟩ := orderly_operations h
  rintro _ (_ | ⟨_, ⟨⟩⟩)
  refine ho.mpr (.cons ?_ (List.pairwise_singleton _ _))
  rintro _ (_ | ⟨_, ⟨⟩⟩) - _ _ hd hd'
  cases hd.resolve_eq
  cases hd'.resolve_eq
  decide

/-- Behind references, parameters with one name, and a required parameter after an optional one,
are not noticed. -/
theorem exists_not_orderly :
    ∃ interface, ofDocument (scale "value" true) = .ok interface ∧
      ∃ operation ∈ interface.operations,
        ¬ (operation.params.map Parameter.name).Nodup ∧
        ¬ operation.params.Pairwise fun p p' ↦ p'.required = true → p.required = true :=
  ⟨_, rfl, _, List.mem_cons_self, by decide, by decide⟩

end Interface

end RpcForge
