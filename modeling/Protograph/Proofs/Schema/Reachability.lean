import Mathlib.Order.Lattice.Nat
import Protograph.Proofs.Schema.Coherence

/-! # Reachability — where the fields of a schema lead from its root

    An edge goes from an object to the target of one of its fields, whatever
    modifiers stand around it.  Only objects have fields, so every path runs
    through objects and at most its end is something else. -/

namespace Protograph.Graph

variable {g : Graph} {owner target id : TypeId}

/-- One of the fields of the object at `owner` refers to `target`. -/
def Edge (g : Graph) (owner target : TypeId) : Prop :=
  ∃ o, g.get? owner = some (.object o) ∧ ∃ field ∈ o.fields, field.type.target = target

/-- Paths from the root, by their number of edges. -/
inductive Path (g : Graph) : Nat → TypeId → Prop where
  | root : g.Path 0 g.root
  | step {n : Nat} {owner target : TypeId} :
      g.Path n owner → g.Edge owner target → g.Path (n + 1) target

/-- Some path leads from the root to the id. -/
def Reachable (g : Graph) (id : TypeId) : Prop := ∃ n, g.Path n id

/-- Length of a shortest path from the root. -/
noncomputable def distance (g : Graph) (id : TypeId) : Nat := sInf { n | g.Path n id }

/-- The type at the id is an object or an enum, so it can have a block. -/
def HasBlock (g : Graph) (id : TypeId) : Prop :=
  (∃ o, g.get? id = some (.object o)) ∨ ∃ e, g.get? id = some (.enum e)

/-- Within the schema there is a type. -/
theorem exists_get? (inside : id < g.size) : ∃ node, g.get? id = some node :=
  Option.isSome_iff_exists.1 ((g.get?_isSome_iff id).2 inside)

theorem object?_eq_some_iff {o : ObjectType} :
    g.object? id = some o ↔ g.get? id = some (.object o) := by
  rw [object?]
  constructor
  · intro there
    obtain ⟨node, found, isObject⟩ := Option.bind_eq_some_iff.1 there
    cases node with
    | object o => cases isObject; exact found
    | _ => cases isObject
  · intro found
    rw [found]
    rfl

/-- The targets of the fields of the type at an id; none unless it is an object. -/
def targetsAt (g : Graph) (id : TypeId) : List TypeId :=
  ((g.get? id).map TypeNode.targets).getD []

theorem targetsAt_of_object {o : ObjectType} (there : g.get? id = some (.object o)) :
    g.targetsAt id = o.fields.map (·.type.target) := by
  rw [targetsAt, there]
  rfl

theorem mem_targetsAt : target ∈ g.targetsAt owner ↔ g.Edge owner target := by
  constructor
  · intro refers
    rw [targetsAt] at refers
    cases there : g.get? owner with
    | none => rw [there] at refers; exact nomatch refers
    | some node =>
        rw [there] at refers
        cases node with
        | object o => exact ⟨o, there, List.mem_map.1 refers⟩
        | _ => exact nomatch refers
  · rintro ⟨o, there, refers⟩
    rw [targetsAt_of_object there]
    exact List.mem_map.2 refers

/-- A list with the root and with whatever its types refer to has all that is reachable. -/
theorem mem_of_reachable {ids : List TypeId} (root : g.root ∈ ids)
    (edges : ∀ owner ∈ ids, ∀ target ∈ g.targetsAt owner, target ∈ ids)
    (reached : g.Reachable id) : id ∈ ids := by
  obtain ⟨n, path⟩ := reached
  induction path with
  | root => exact root
  | step path edge ih => exact edges _ ih _ (mem_targetsAt.2 edge)

theorem Reachable.step (reached : g.Reachable owner) (edge : g.Edge owner target) :
    g.Reachable target := by
  obtain ⟨n, path⟩ := reached
  exact ⟨n + 1, .step path edge⟩

/-- No field points outside the schema. -/
def Closed (g : Graph) : Prop := ∀ {owner target : TypeId}, g.Edge owner target → target < g.size

theorem Built.closed (built : g.Built) : g.Closed := by
  rintro owner target ⟨o, there, refers⟩
  exact built.coherent.closed there target (List.mem_map.2 refers)

/-! ## Distance -/

theorem path_distance (reached : g.Reachable id) : g.Path (g.distance id) id :=
  Nat.sInf_mem (s := { n | g.Path n id }) reached

theorem distance_le {n : Nat} (path : g.Path n id) : g.distance id ≤ n := Nat.sInf_le path

end Protograph.Graph
