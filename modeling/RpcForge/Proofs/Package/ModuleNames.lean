import RpcForge.Proofs.Package.Declarations

/-!
# Names of a Python module

The names that the module with the clients defines are put together from the title of a document and
the paths of its groups. They differ as long as the paths do in Pascal case, and as long as no path
ends in the word that tells classes for awaited calls from the others.
-/

namespace RpcForge

namespace PythonClient

open Package

/-- Groups have classes for calls that block only if some client is for single requests. -/
theorem stylesOf_eq {plan : Plan} (h : plan.transports ≠ []) :
    stylesOf plan = if .http ∈ plan.transports then [.blocking, .awaited] else [.awaited] := by
  have hb : ((clientsOf plan).any fun c ↦ c.style == .blocking) =
      decide (.http ∈ plan.transports) := by
    have hf (transport : Transport) :
        ((clientsFor plan transport).any fun c ↦ c.style == .blocking) = (transport == .http) := by
      cases transport <;> rfl
    rw [clientsOf, List.any_flatMap, ← List.contains_eq_mem, ← List.any_beq']
    simp only [hf]
  have ha : ((clientsOf plan).any fun c ↦ c.style == .awaited) = true := by
    have hf (transport : Transport) :
        ((clientsFor plan transport).any fun c ↦ c.style == .awaited) = true := by
      cases transport <;> rfl
    simpa [clientsOf, List.any_flatMap, hf] using List.exists_mem_of_ne_nil _ h
  rw [stylesOf, CallStyle.all, List.filter_cons, List.filter_cons, hb, ha]
  by_cases hm : .http ∈ plan.transports
  · simp [hm]
  · simp [hm]

/-- The names that the module defines, by their endings. -/
def Module.families (m : Module) : List (List Char × List String) :=
  [(Naming.ending serversClass, [serversClass]),
    (Naming.ending serializeFunction, [serializeFunction]),
    (Naming.ending "Methods", m.groupClasses.map GroupClass.name),
    (Naming.ending "Client", m.clients.map ClientClass.name)]

private theorem Module.topLevelNames_eq (m : Module) :
    m.topLevelNames = m.families.flatMap Prod.snd := by
  simp [topLevelNames, families]

private theorem nodup_clientNames {plan : Plan} (h : plan.transports.Nodup) :
    ((clientsOf plan).map ClientClass.name).Nodup := by
  have hm : (clientsOf plan).map ClientClass.name =
      (plan.transports.flatMap fun transport ↦ (clientForms transport).map Prod.fst).map
        fun middle ↦ plan.clientName ++ middle ++ "Client" := by
    rw [clientsOf, List.map_flatMap, List.map_flatMap]
    simp only [clientsFor, List.map_map]
    rfl
  rw [hm, List.nodup_map_iff (Naming.injective_between _ _), List.nodup_flatMap]
  constructor
  · intro transport _
    cases transport <;> decide
  · apply h.imp
    intro transport other hne
    apply List.disjoint_left.mpr
    cases transport with
    | http =>
      cases other with
      | http => exact absurd rfl hne
      | ws => decide
    | ws =>
      cases other with
      | http => decide
      | ws => exact absurd rfl hne

private theorem nodup_groupClassNames_iff {plan : Plan} (h : plan.transports ≠ []) :
    ((moduleOf plan).groupClasses.map GroupClass.name).Nodup ↔
      (plan.groups.map Group.stem).Nodup ∧ (.http ∈ plan.transports →
        ∀ group ∈ plan.groups, ∀ other ∈ plan.groups, group.stem ≠ other.stem ++ "Async") := by
  have hn : (moduleOf plan).groupClasses.map GroupClass.name =
      (stylesOf plan).flatMap fun style ↦ plan.groups.map (plan.groupClass style.classSuffix) := by
    simp only [moduleOf, List.map_flatMap, List.map_map]
    rfl
  have hs (group other : Group) :
      plan.groupClass "Methods" group = plan.groupClass "AsyncMethods" other ↔
        group.stem = other.stem ++ "Async" := by
    have ha : plan.groupClass "AsyncMethods" other =
        plan.clientName ++ (other.stem ++ "Async") ++ "Methods" := by
      simp [plan.groupClass_eq, String.append_assoc]
    rw [ha, plan.groupClass_eq]
    exact (Naming.injective_between plan.clientName "Methods").eq_iff
  rw [hn, stylesOf_eq h]
  split
  · next hm =>
    simp [CallStyle.classSuffix, List.nodup_append, Plan.nodup_map_groupClass_iff, hm, hs]
  · next hm => simp [CallStyle.classSuffix, Plan.nodup_map_groupClass_iff, hm]

/-- The endings of names are those of their families, and no two families have the same. -/
private theorem endings_families (plan : Plan) : ((moduleOf plan).families.map Prod.fst).Nodup ∧
    ∀ family ∈ (moduleOf plan).families, ∀ name ∈ family.2, Naming.ending name = family.1 := by
  have hd : ([serversClass, serializeFunction, "Methods", "Client"].map Naming.ending).Nodup := by
    decide
  refine ⟨hd, ?_⟩
  simp only [Module.families, List.forall_mem_cons, List.forall_mem_map, List.not_mem_nil,
    false_implies, implies_true, and_true, true_and]
  constructor
  · intro c hc
    obtain ⟨style, -, hc⟩ := List.mem_flatMap.mp hc
    obtain ⟨group, -, rfl⟩ := List.mem_map.mp hc
    cases style with
    | blocking => exact Naming.ending_append _ (by decide)
    | awaited => exact (Naming.ending_append _ (by decide)).trans (by decide)
  · intro c hc
    obtain ⟨transport, -, hc⟩ := List.mem_flatMap.mp hc
    obtain ⟨form, -, rfl⟩ := List.mem_map.mp hc
    exact Naming.ending_append _ (by decide)

/-- The blocks of the module declare the names that it defines, in order. -/
private theorem declares_moduleCode (plan : Plan) :
    List.Forall₂ (Declares .python) (moduleOf plan).topLevelNames
      (Code.blocks (moduleCode (moduleOf plan))) := by
  have hf : List.Forall₂ (Declares .python) [serversClass, serializeFunction]
      (Code.blocks (serversCode (moduleOf plan) ++ serializeCode)) := by
    simp only [serversCode, serializeCode, List.cons_append, List.nil_append, Code.blocks_blank,
      Code.blocks_suite, Code.blocks_nil]
    refine .cons ⟨by decide, introduces_classHeader _ _ none⟩ (.cons ⟨by decide, ?_⟩ .nil)
    exact ⟨"def ", by decide, "(value: Any) -> Any", rfl, by decide⟩
  have hg : List.Forall₂ (Declares .python) ((moduleOf plan).groupClasses.map GroupClass.name)
      (Code.blocks ((moduleOf plan).groupClasses.flatMap groupClassCode)) := by
    refine declares_classes showsClass_group fun c hc ↦ ?_
    obtain ⟨style, -, hc⟩ := List.mem_flatMap.mp hc
    obtain ⟨group, -, rfl⟩ := List.mem_map.mp hc
    exact plan.isWord_groupClass (by cases style <;> decide) group
  have hc : List.Forall₂ (Declares .python) ((moduleOf plan).clients.map ClientClass.name)
      (Code.blocks ((moduleOf plan).clients.flatMap (clientClassCode (moduleOf plan)))) := by
    refine declares_classes (showsClass_client (moduleOf plan)) fun c hc ↦ ?_
    obtain ⟨transport, -, hc⟩ := List.mem_flatMap.mp hc
    obtain ⟨form, hf, rfl⟩ := List.mem_map.mp hc
    have hm : ∀ form ∈ clientForms transport, Naming.IsWord form.1 := by
      cases transport <;> decide
    exact ((Naming.isWord_cased _ _).append (hm form hf)).append (by decide)
  have hall := List.rel_append (List.rel_append hf hg) hc
  simpa [Module.topLevelNames, moduleCode] using hall

/-- For a plan that is made for a document, with transports of which none comes twice, the names
that the module defines differ exactly if no two groups have the same stem and, where calls that
block and calls that are awaited have classes of their own, none has the stem of another with
`Async` behind it. -/
theorem moduleNames_nodup_iff {document : Document} {plan : Plan} (made : plan.MadeFor document)
    (distinct : plan.transports.Nodup) :
    List.Forall₂ (Declares .python) (moduleOf plan).topLevelNames
      (Code.blocks (moduleCode (moduleOf plan))) ∧
    ((moduleOf plan).topLevelNames.Nodup ↔
      (plan.groups.map Group.stem).Nodup ∧ (.http ∈ plan.transports →
        ∀ group ∈ plan.groups, ∀ other ∈ plan.groups, group.stem ≠ other.stem ++ "Async")) := by
  refine ⟨declares_moduleCode plan, ?_⟩
  obtain ⟨hd, he⟩ := endings_families plan
  rw [Module.topLevelNames_eq, Naming.nodup_flatMap_iff_of_endings hd he]
  have hc : ((moduleOf plan).clients.map ClientClass.name).Nodup := nodup_clientNames distinct
  simp [Module.families, hc, nodup_groupClassNames_iff made.transports_ne_nil]

/-- A document with methods of given names, none of which takes anything. -/
def plain (names : List String) : Document where
  openrpc := "1.3.2"
  info := { title := "Clash", version := "1" }
  methods := names.map fun name ↦ .inline { name := name, params := [] }

/-- A group in another one may be called `async` where all calls are awaited. -/
theorem moduleNames_nodup_ws :
    ∃ plan, Plan.ofDocument (plain ["a.one", "a.async.two"]) = .ok plan ∧
      (moduleOf (plan.withTransports [.ws])).topLevelNames.Nodup := by
  have hf : ((Plan.ofDocument (plain ["a.one", "a.async.two"])).toOption.map fun plan ↦
      (plan.withTransports [.ws]).groups.map Group.stem) = some ["A", "AAsync"] := by decide +kernel
  obtain ⟨plan, hp, hs⟩ := exists_ok_of_map_toOption hf
  refine ⟨plan, hp, (moduleNames_nodup_iff (.transports (.fresh hp) [.ws]) ?_).2.mpr ⟨?_, ?_⟩⟩
  · change [Transport.ws].Nodup
    decide
  · rw [hs]
    decide
  · intro h
    change Transport.http ∈ [Transport.ws] at h
    simp at h

/-- Groups at different depths can have one class name, and the clients are written nevertheless. -/
theorem exists_moduleNames_not_nodup :
    ∃ plan files, Plan.ofDocument (plain ["a.b.one", "aB.two"]) = .ok plan ∧
      PythonPackage.clientFiles plan = .ok files ∧ ¬ (moduleOf plan).topLevelNames.Nodup := by
  have hf : ((Plan.ofDocument (plain ["a.b.one", "aB.two"])).toOption.map fun plan ↦
      ((PythonPackage.clientFiles plan).toOption.map fun _ ↦ (),
        (moduleOf plan).topLevelNames)) =
      some (some (), ["Servers", "_serialize", "ClashAMethods", "ClashABMethods", "ClashABMethods",
        "ClashAAsyncMethods", "ClashABAsyncMethods", "ClashABAsyncMethods", "ClashHTTPClient",
        "ClashAsyncHTTPClient"]) := by decide +kernel
  obtain ⟨plan, hp, he⟩ := exists_ok_of_map_toOption hf
  obtain ⟨hc, hn⟩ := Prod.mk.inj he
  obtain ⟨files, hw, -⟩ := exists_ok_of_map_toOption hc
  refine ⟨plan, files, hp, hw, ?_⟩
  rw [hn]
  decide

end PythonClient

end RpcForge
