import RpcForge.Proofs.Except
import RpcForge.Proofs.Text.Parts
import RpcForge.Run.Generation

/-!
# Turns of target languages

What the turn of a target language comes to does not depend on the turns before it, as long as no
operation on files fails: the plan, the settings and the tools decide it. So a run that takes
several languages reports for each of them what a run for this language alone reports.
-/

namespace RpcForge

namespace Toolbox

/-- Whether the tools over a directory fail: its path has a given text in it. -/
def failsOver (fragment : Option String) (directory : String) : Bool :=
  fragment.any fun part ↦ decide (part.toList <:+: directory.toList)

/-- Tools that are recorded fail over directories with the text in their path. -/
private theorem call_recording (fragment : Option String) (tool : Tool) (directory : String) :
    (recording fragment).call tool directory =
      if failsOver fragment directory then .error (failure tool) else .ok () := by
  have hf : fragment.any (Text.hasPart directory) = failsOver fragment directory := by
    cases fragment with
    | none => rfl
    | some part =>
      apply Bool.eq_iff_iff.mpr
      simp [failsOver, Text.hasPart_iff]
  rw [← hf]
  rfl

private theorem record_recording (fragment : Option String) (directory : String) :
    (recording fragment).record directory = fun tool ↦ [⟨tool.commandLine, directory⟩] := rfl

/-- The tools up to the first one that fails, which is among them. -/
def upToFailure (fails : Tool → Bool) : List Tool → List Tool
  | [] => []
  | tool :: tools => if fails tool then [tool] else tool :: upToFailure fails tools

/-- Tools are called up to the first one that fails, and what comes of that one comes of all. -/
theorem run_eq (toolbox : Toolbox) (directory : String) (tools : List Tool) :
    toolbox.run directory tools =
      ((upToFailure (fun tool ↦ !(toolbox.call tool directory).isOk) tools).flatMap
          (toolbox.record directory),
        forM tools fun tool ↦ toolbox.call tool directory) := by
  induction tools with
  | nil => rfl
  | cons tool tools ih =>
    rw [List.forM_cons, upToFailure, run]
    cases hc : toolbox.call tool directory with
    | error e => simp [Except.isOk, Except.toBool, bind, Except.bind]
    | ok u => simp [Except.isOk, Except.toBool, bind, Except.bind, ih]

/-- Tools that are recorded either all fail or all succeed over a directory. -/
private theorem run_recording (fragment : Option String) (directory : String)
    (tools : List Tool) :
    (recording fragment).run directory tools =
      ((upToFailure (fun _ ↦ failsOver fragment directory) tools).map
          fun tool ↦ ⟨tool.commandLine, directory⟩,
        match tools.find? fun _ ↦ failsOver fragment directory with
        | some tool => .error (failure tool)
        | none => .ok ()) := by
  have hf (tool : Tool) : (!((recording fragment).call tool directory).isOk) =
      failsOver fragment directory := by
    rw [call_recording]
    cases failsOver fragment directory <;> rfl
  have hr : (forM tools fun tool ↦ (recording fragment).call tool directory) =
      match tools.find? fun _ ↦ failsOver fragment directory with
      | some tool => .error (failure tool)
      | none => .ok () := by
    simp only [call_recording]
    cases failsOver fragment directory with
    | false =>
      rw [List.find?_eq_none.mpr (by simp)]
      exact forM_eq_ok_iff.mpr fun _ _ ↦ rfl
    | true => cases tools <;> rfl
  rw [run_eq, hr, record_recording, ← List.map_eq_flatMap]
  simp only [hf]

end Toolbox

/-- A report is an error exactly if something went wrong for a language, and it then names the
languages for which it did. -/
theorem Report.error?_eq_some_iff (report : Report) (e : RunError) :
    report.error? = some e ↔ (∃ outcome ∈ report.outcomes, outcome.error ≠ none) ∧
      e = .languages ((report.outcomes.filter (·.error.isSome)).map (·.language.name)) := by
  have hs : report.isSuccess = true ↔ ¬∃ outcome ∈ report.outcomes, outcome.error ≠ none := by
    simp [Report.isSuccess, Outcome.isSuccess]
  have hf : report.failed =
      (report.outcomes.filter (·.error.isSome)).map (·.language.name) := by
    simp [Report.failed, Outcome.isSuccess]
  unfold Report.error?
  by_cases h : report.isSuccess = true
  · simp [h, hs.mp h]
  · have hn := not_not.mp (fun hn ↦ h (hs.mpr hn))
    simp [h, hn, hf, eq_comm]

namespace Generation

/-! ## Turns without trouble -/

/-- The files that the turn of a language leaves behind. -/
def leave (settings : Settings) (plan : Plan) (tree : FileTree) (l : Language) : FileTree :=
  match Package.files l plan with
  | .error _ => tree
  | .ok files => (writePackage (packageDirectory settings plan l) tree files).1

/-- Whether the files of a language are written without a failure, if there are any. -/
def isWritten (settings : Settings) (plan : Plan) (tree : FileTree) (l : Language) : Bool :=
  match Package.files l plan with
  | .error _ => true
  | .ok files => (writePackage (packageDirectory settings plan l) tree files).2.isOk

/-- No operation on files fails while languages take their turns. -/
def Unhindered (settings : Settings) (plan : Plan) : FileTree → List Language → Prop
  | _, [] => True
  | tree, l :: ls =>
    isWritten settings plan tree l = true ∧ Unhindered settings plan (leave settings plan tree l) ls

instance decidableUnhindered (settings : Settings) (plan : Plan) :
    (tree : FileTree) → (ls : List Language) → Decidable (Unhindered settings plan tree ls)
  | _, [] => .isTrue trivial
  | tree, l :: ls =>
    have := decidableUnhindered settings plan (leave settings plan tree l) ls
    inferInstanceAs (Decidable (_ ∧ _))

/-- The tools that are to run over the package of a language: formatters before what builds it. -/
def enabledTools (settings : ToolSettings) (l : Language) : List Tool :=
  (if settings.format then Package.tools l .format else []) ++
    if settings.build then Package.tools l .build else []

/-- What the turn of a language comes to. If the package cannot be made, nothing is written and no
tool is called. Otherwise all its files count as written, also if a tool fails. -/
def turnOf (settings : Settings) (fragment : Option String) (plan : Plan) (l : Language) : Turn :=
  let directory := packageDirectory settings plan l
  let fails (_ : Tool) : Bool := Toolbox.failsOver fragment directory
  match Package.files l plan with
  | .error e => ⟨⟨l, directory, 0, some (.generation e)⟩, []⟩
  | .ok files =>
    ⟨⟨l, directory, files.length,
        ((enabledTools settings.tools l).find? fails).map Toolbox.failure⟩,
      (Toolbox.upToFailure fails (enabledTools settings.tools l)).map
        fun tool ↦ ⟨tool.commandLine, directory⟩⟩

/-- The tools of the stages that run are those that are enabled. -/
private theorem toolsFor_eq (settings : ToolSettings) (l : Language) :
    toolsFor settings l = enabledTools settings l := by
  unfold toolsFor stages enabledTools
  cases settings.format <;> cases settings.build <;> simp

/-- A turn leaves the same files behind whatever becomes of the tools. -/
theorem takeTurn_fst (settings : Settings) (toolbox : Toolbox) (plan : Plan) (tree : FileTree)
    (l : Language) : (takeTurn settings toolbox plan tree l).1 = leave settings plan tree l := by
  unfold takeTurn leave
  cases Package.files l plan with
  | error e => rfl
  | ok files =>
    cases hw : writePackage (packageDirectory settings plan l) tree files with
    | mk left result => cases result <;> simp [hw]

/-- A turn in which no operation on files fails comes to what the plan says. -/
private theorem takeTurn_snd {settings : Settings} {plan : Plan} {tree : FileTree} {l : Language}
    (written : isWritten settings plan tree l = true) (fragment : Option String) :
    (takeTurn settings (.recording fragment) plan tree l).2 = turnOf settings fragment plan l := by
  unfold isWritten at written
  unfold takeTurn turnOf
  cases hf : Package.files l plan with
  | error e => rfl
  | ok files =>
    simp only [hf] at written
    cases hw : writePackage (packageDirectory settings plan l) tree files with
    | mk left result =>
      rw [hw] at written
      cases result with
      | error e => cases written
      | ok _ =>
        simp only [hw, toolsFor_eq, Toolbox.run_recording]
        cases (enabledTools settings.tools l).find? _ <;> rfl

/-- Languages whose turns go without trouble come to what each of them comes to. -/
private theorem takeTurns_eq {settings : Settings} {plan : Plan} {tree : FileTree}
    {ls : List Language} (unhindered : Unhindered settings plan tree ls)
    (fragment : Option String) :
    takeTurns settings (.recording fragment) plan tree ls =
      (ls.foldl (leave settings plan) tree, ls.map (turnOf settings fragment plan)) := by
  induction ls generalizing tree with
  | nil => rfl
  | cons l ls ih =>
    obtain ⟨written, rest⟩ := unhindered
    have hfst := takeTurn_fst settings (.recording fragment) plan tree l
    have hsnd := takeTurn_snd written fragment
    simp only [takeTurns, hfst, hsnd, ih rest, List.foldl_cons, List.map_cons]

/-! ## Runs -/

/-- The settings for one target language alone. -/
def alone (settings : Settings) (l : Language) : Settings :=
  { settings with target := { settings.target with languages := [l] } }

/-- A run for one language makes the same plan. -/
private theorem planFor_alone (settings : Settings) (l : Language) (document : Document) :
    planFor (alone settings l) document = planFor settings document := rfl

/-- A run whose operations on files succeed reports what each language comes to. -/
private theorem generate_eq {settings : Settings} {document : Document} {plan : Plan}
    (planned : planFor settings document = .ok plan) {tree : FileTree}
    (unhindered : Unhindered settings plan tree settings.target.languages)
    (fragment : Option String) :
    generate settings (.recording fragment) document tree =
      .ok (settings.target.languages.foldl (leave settings plan) tree,
        ⟨settings.target.languages.map (turnOf settings fragment plan)⟩) := by
  unfold generate
  simp only [planned, takeTurns_eq unhindered]

/-- A turn that comes to something is that of its language. -/
private theorem language_turnOf (settings : Settings) (fragment : Option String) (plan : Plan)
    (l : Language) : (turnOf settings fragment plan l).outcome.language = l := by
  unfold turnOf
  cases Package.files l plan <;> rfl

/-- A run whose operations on files succeed reports for each of its languages, in order, what a run
for this language alone reports, whatever files there are before. What that is, `turnOf` says. The
run as a whole is an error exactly if something went wrong for a language, and it then names those
for which it did. -/
theorem generate_isolated {settings : Settings} {document : Document} {plan : Plan}
    (planned : planFor settings document = .ok plan) {tree : FileTree}
    (unhindered : Unhindered settings plan tree settings.target.languages)
    (fragment : Option String) :
    ∃ left report, generate settings (.recording fragment) document tree = .ok (left, report) ∧
      report.outcomes.map Outcome.language = settings.target.languages ∧
      report.turns = settings.target.languages.map (turnOf settings fragment plan) ∧
      (∀ l ∈ settings.target.languages, ∀ other, Unhindered (alone settings l) plan other [l] →
        ∃ left', generate (alone settings l) (.recording fragment) document other =
          .ok (left', ⟨[turnOf settings fragment plan l]⟩)) ∧
      ∀ e, report.error? = some e ↔ (∃ outcome ∈ report.outcomes, outcome.error ≠ none) ∧
        e = .languages ((report.outcomes.filter (·.error.isSome)).map (·.language.name)) := by
  refine ⟨_, _, generate_eq planned unhindered fragment, ?_, rfl, ?_, Report.error?_eq_some_iff _⟩
  · simp only [Report.outcomes, List.map_map]
    conv_rhs => rw [← List.map_id settings.target.languages]
    apply List.map_congr_left
    intro l _
    exact language_turnOf settings fragment plan l
  · intro l _ other free
    have planned' : planFor (alone settings l) document = .ok plan := by
      rw [planFor_alone, planned]
    exact ⟨_, generate_eq planned' free fragment⟩

/-- A document with two methods. -/
def pair (first second : String) : Document where
  openrpc := "1.3.2"
  info := { title := "Pair", version := "1" }
  methods := [.inline { name := first, params := [] }, .inline { name := second, params := [] }]

/-- Settings for both languages, TypeScript first. -/
def reversed : Settings where
  output := { directory := "out" }
  target := { languages := [.typeScript, .python] }

/-- Of the two methods, TypeScript can write only one under the name `a1`, and over the Python
package the formatter fails: each language fails for itself, and TypeScript alone fails as it does
here. -/
theorem generate_isolated_pair :
    ∃ plan left report, planFor reversed (pair "a1" "a_1") = .ok plan ∧
      Unhindered reversed plan {} [.typeScript, .python] ∧
      generate reversed (.recording (some "python")) (pair "a1" "a_1") {} = .ok (left, report) ∧
      report.outcomes.map Outcome.language = [.typeScript, .python] ∧
      report.calls = [⟨"black src", "out/python/pair_client"⟩] ∧
      report.error? = some (.languages ["typescript", "python"]) ∧
      ∃ left', generate (alone reversed .typeScript) (.recording (some "python"))
        (pair "a1" "a_1") {} = .ok (left', ⟨report.turns.take 1⟩) := by
  obtain ⟨plan, planned, unhindered, calls_eq, first_failed, last_failed⟩ :
      ∃ plan, planFor reversed (pair "a1" "a_1") = .ok plan ∧
        Unhindered reversed plan {} [.typeScript, .python] ∧
        ([Language.typeScript, .python].map (turnOf reversed (some "python") plan)).flatMap
          Turn.calls = [⟨"black src", "out/python/pair_client"⟩] ∧
        (turnOf reversed (some "python") plan .typeScript).outcome.error.isSome = true ∧
        (turnOf reversed (some "python") plan .python).outcome.error.isSome = true :=
    ⟨_, rfl, by decide +kernel, by decide +kernel, by decide +kernel, by decide +kernel⟩
  obtain ⟨left, report, run_eq, languages_eq, turns_eq, alone_eq, error_iff⟩ :=
    generate_isolated planned unhindered (some "python")
  have turns_eq : report.turns = [Language.typeScript, .python].map _ := turns_eq
  obtain ⟨left', alone_eq⟩ := alone_eq .typeScript (by simp [reversed]) {} ⟨unhindered.1, trivial⟩
  refine ⟨plan, left, report, planned, unhindered, run_eq, languages_eq, ?_, ?_, left', ?_⟩
  · rw [Report.calls, turns_eq, calls_eq]
  · apply (error_iff _).mpr
    constructor
    · have hm : (turnOf reversed (some "python") plan .typeScript).outcome ∈ report.outcomes := by
        simp [Report.outcomes, turns_eq]
      exact ⟨_, hm, Option.isSome_iff_ne_none.mp first_failed⟩
    · simp [Report.outcomes, turns_eq, first_failed, last_failed, language_turnOf, Language.name]
  · rw [turns_eq]
    exact alone_eq

end Generation

end RpcForge
