import RpcForge.Interface.Model

/-!
# The order of aliases

Where a type is written as another name for a type, what it mentions has to come before it. Aliases
are written in rounds: those that mention none but aliases of earlier rounds, or themselves. Aliases
that are left when a round is empty lie on a cycle or behind one, and are written as they come.
-/

namespace RpcForge.Models

/-- Whether all aliases that a model mentions, but itself, are written already. -/
def isReady (aliases written : List String) (model : Model) : Bool :=
  model.meaning.references.all fun name ↦
    name == model.name || !aliases.contains name || written.contains name

/-- The aliases of the next round. -/
def ready (aliases written : List String) (left : List Model) : List Model :=
  left.filter (isReady aliases written)

/-- The aliases that have to wait for the next round. -/
def blocked (aliases written : List String) (left : List Model) : List Model :=
  left.filter (!isReady aliases written ·)

/-- A round with an alias in it leaves fewer of them. -/
private theorem length_blocked_lt {aliases written : List String} {left : List Model}
    (h : ready aliases written left ≠ []) :
    (blocked aliases written left).length < left.length := by
  obtain ⟨model, hm⟩ := List.exists_mem_of_ne_nil _ h
  rw [ready, List.mem_filter] at hm
  exact List.length_filter_lt_length_iff_exists.2 ⟨model, hm.1, by simp [hm.2]⟩

/-- The aliases that are left, in the order in which to write them after the `written` ones. -/
def aliasRounds (aliases written : List String) (left : List Model) : List Model :=
  if _ : ready aliases written left = [] then blocked aliases written left
  else
    ready aliases written left ++
      aliasRounds aliases (written ++ (ready aliases written left).map Model.name)
        (blocked aliases written left)
termination_by left.length
decreasing_by exact length_blocked_lt ‹_›

/-- Aliases in the order in which to write them. -/
def aliasOrder (aliases : List Model) : List Model :=
  aliasRounds (aliases.map Model.name) [] aliases

end RpcForge.Models
