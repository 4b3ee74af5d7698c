import RpcForge.Proofs.Naming
import RpcForge.Proofs.Run.Writing

/-!
# Paths of packages

The names in the paths of a package are plain, and no two of its files have the same path.
-/

namespace RpcForge

open FilePath

/-- An identifier is a plain name. -/
theorem Naming.IsIdentifier.isPlain {name : String} (h : Naming.IsIdentifier name) :
    FilePath.IsPlain name := by
  have hc : ∀ d ∈ name.toList, d ≠ '.' ∧ d ≠ '/' := by
    rintro d hd
    rcases h.forall_mem d hd with ha | rfl
    · constructor <;> rintro rfl <;> exact absurd ha (by decide)
    · decide
  refine ⟨?_, ?_, ?_, fun hs ↦ (hc '/' hs).2 rfl⟩
  · rintro rfl
    obtain ⟨c, cs, hn, -⟩ := h
    simp at hn
  · rintro rfl
    exact (hc '.' (by decide)).1 rfl
  · rintro rfl
    exact (hc '.' (by decide)).1 rfl

theorem Plan.isPlain_packageName (plan : Plan) : FilePath.IsPlain plan.packageName :=
  plan.isIdentifier_packageName.isPlain

theorem Language.isPlain_name (l : Language) : FilePath.IsPlain l.name := by
  cases l <;> decide

theorem Language.name_injective {l l' : Language} (h : l.name = l'.name) : l = l' := by
  cases l <;> cases l' <;> first | rfl | exact absurd h (by decide)

namespace Package

open Generation (AreFiles)

/-! ## Files of a package -/

/-- Files are those of a package as soon as their paths are as they should be. -/
private theorem areFiles_iff (files : List SourceFile) :
    AreFiles files ↔ files.map SourceFile.path ≠ [] ∧
      (∀ path ∈ files.map SourceFile.path, path ≠ [] ∧ ∀ name ∈ path, FilePath.IsPlain name) ∧
      (files.map SourceFile.path).Nodup := by
  constructor
  · intro h
    refine ⟨by simpa using h.ne_nil, fun path hm ↦ ?_, h.nodup⟩
    obtain ⟨file, hf, rfl⟩ := List.mem_map.mp hm
    exact ⟨(h.plain file hf).ne_nil, (h.plain file hf).names⟩
  · rintro ⟨hn, hp, hd⟩
    refine ⟨by simpa using hn, fun file hf ↦ ?_, hd⟩
    obtain ⟨hne, hnames⟩ := hp _ (List.mem_map_of_mem hf)
    exact ⟨hne, hnames⟩

/-- The paths of the files of a package. -/
def paths : Language → Plan → List FilePath
  | .python, plan =>
    [["src", plan.packageName, "client.py"], ["src", plan.packageName, "__init__.py"]] ++
      (if plan.hasModels then [["src", plan.packageName, "models.py"]] else []) ++
      [["pyproject.toml"], ["README.md"]]
  | .typeScript, plan =>
    [["src", "client.ts"], ["src", "index.ts"]] ++
      (if plan.hasModels then [["src", "models.ts"]] else []) ++
      [["package.json"], ["tsconfig.json"], [".prettierrc"], [".prettierignore"], ["README.md"]]

theorem map_path_files {l : Language} {plan : Plan} {written : List SourceFile}
    (h : files l plan = .ok written) : written.map SourceFile.path = paths l plan := by
  rw [files, map_eq_ok_iff] at h
  obtain ⟨clients, hc, rfl⟩ := h
  cases l with
  | python =>
    rw [clientFiles, PythonPackage.clientFiles, map_eq_ok_iff] at hc
    obtain ⟨_, -, rfl⟩ := hc
    cases hm : plan.hasModels <;> simp [paths, modelFiles, PythonPackage.modelFiles, hm,
      projectFiles, PythonPackage.projectFiles, PythonPackage.sourceDirectory]
  | typeScript =>
    rw [clientFiles, TypeScriptPackage.clientFiles, map_eq_ok_iff] at hc
    obtain ⟨_, -, rfl⟩ := hc
    cases hm : plan.hasModels <;> simp [paths, modelFiles, TypeScriptPackage.modelFiles, hm,
      projectFiles, TypeScriptPackage.projectFiles]

/-- A package has files, under plain paths of which no two are the same. -/
theorem areFiles {l : Language} {plan : Plan} {written : List SourceFile}
    (h : files l plan = .ok written) : AreFiles written := by
  have hp := plan.isPlain_packageName
  have hs : FilePath.IsPlain "src" ∧ FilePath.IsPlain "client.py" ∧
      FilePath.IsPlain "__init__.py" ∧ FilePath.IsPlain "models.py" ∧
      FilePath.IsPlain "pyproject.toml" ∧ FilePath.IsPlain "README.md" := by decide
  rw [areFiles_iff, map_path_files h]
  cases l with
  | python => cases hm : plan.hasModels <;> simp [paths, hm, hp, hs]
  | typeScript =>
    simp only [paths]
    cases plan.hasModels <;> decide

end Package

end RpcForge
