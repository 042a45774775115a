import Protograph.Schema.Graph
import Protograph.Proto.Error
import Protograph.Trace

/-! # Emission — the types a document has blocks for, in their order

    The root comes first.  The walk then takes ids from the front of a queue,
    looks at the fields of each object in declaration order, and appends a
    target the first time a field refers to it, if it is an object or an enum.
    A target is marked when it is met, not when it is taken, so cycles end.

    The walk ends on every graph, also on one whose ids dangle: an id is
    queued only when it lies in the schema and has not been met, so the ids
    not yet met together with the queue shrink by one at each step
    (`Walk.pending_step`). -/

namespace Protograph

/-- State of the walk. -/
structure Walk where
  /-- Ids already met, the latest first. -/
  visited : List TypeId
  /-- Ids met whose fields have not been looked at. -/
  queue : List TypeId
  /-- Ids in the order they were met. -/
  emitted : List TypeId
  deriving DecidableEq, Repr

namespace Walk

/-- The walk before its first step: the root has been met. -/
def start (root : TypeId) : Walk := ⟨[root], [root], [root]⟩

/-- Meet an id for the first time. -/
def meet (w : Walk) (id : TypeId) : Walk :=
  ⟨id :: w.visited, w.queue ++ [id], w.emitted ++ [id]⟩

/-- Look at one field of an object. -/
def follow (g : Graph) (owner : ObjectType) (field : Field TypeId) (w : Walk) :
    Traced TranslateError Walk :=
  match g.get? field.type.target with
  | none =>
      .ofExcept (.error (.invalidGraph (.danglingField owner.name field.name field.type.target)))
  | some node =>
      if node.isEmittable && !w.visited.contains field.type.target then
        ⟨[.discovered node.variant node.name owner.name field.name],
          .ok (w.meet field.type.target)⟩
      else pure w

/-- Look at the fields of an object in order. -/
def expand (g : Graph) (owner : ObjectType) :
    List (Field TypeId) → Walk → Traced TranslateError Walk
  | [], w => pure w
  | field :: fields, w => do
      let w' ← follow g owner field w
      expand g owner fields w'

/-- Take the front of the queue and look at its fields; enums have none. -/
def step (g : Graph) (w : Walk) : Traced TranslateError Walk :=
  match w.queue with
  | [] => pure w
  | id :: rest =>
      match g.object? id with
      | some owner => expand g owner owner.fields { w with queue := rest }
      | none => pure { w with queue := rest }

/-! ## Why the walk ends -/

/-- Number of ids of the schema that have not been met. -/
def unmet (g : Graph) (w : Walk) : Nat :=
  ((List.range g.size).filter fun id => !w.visited.contains id).length

/-- Ids not met and ids waiting, counted together. -/
def pending (g : Graph) (w : Walk) : Nat := w.unmet g + w.queue.length

theorem unmet_meet {g : Graph} {w : Walk} {id : TypeId} (valid : id < g.size)
    (fresh : w.visited.contains id = false) : (w.meet id).unmet g + 1 = w.unmet g := by
  have member : id ∈ (List.range g.size).filter fun i => !w.visited.contains i := by
    rw [List.mem_filter]
    exact ⟨List.mem_range.2 valid, by rw [fresh]; rfl⟩
  have distinct : ((List.range g.size).filter fun i => !w.visited.contains i).Nodup :=
    List.nodup_range.filter _
  have erased : (List.range g.size).filter (fun i => !(w.meet id).visited.contains i)
      = ((List.range g.size).filter fun i => !w.visited.contains i).erase id := by
    rw [distinct.erase_eq_filter, List.filter_filter]
    apply List.filter_congr
    intro i _
    by_cases same : i = id
    · simp [meet, same]
    · simp [meet, same]
  have positive := List.length_pos_of_mem member
  simp only [unmet, erased, List.length_erase_of_mem member]
  omega

/-- Looking at a field only moves an id from the unmet to the waiting. -/
theorem pending_follow {g : Graph} {owner : ObjectType} {field : Field TypeId} {w w' : Walk}
    (h : (follow g owner field w).result = .ok w') : w'.pending g = w.pending g := by
  unfold follow at h
  split at h
  · cases h
  · next node found =>
      split at h
      · next fresh =>
          cases h
          have valid : field.type.target < g.size :=
            (g.get?_isSome_iff _).1 (by rw [found]; rfl)
          have unseen : w.visited.contains field.type.target = false := by
            simp only [Bool.and_eq_true, Bool.not_eq_true'] at fresh
            exact fresh.2
          have moved := unmet_meet valid unseen
          simp only [pending, meet, List.length_append, List.length_singleton] at *
          omega
      · cases h
        rfl

theorem pending_expand {g : Graph} {owner : ObjectType} {fields : List (Field TypeId)}
    {w w' : Walk} (h : (expand g owner fields w).result = .ok w') :
    w'.pending g = w.pending g := by
  induction fields generalizing w with
  | nil => cases h; rfl
  | cons field fields ih =>
      rw [expand, Traced.result_bind] at h
      cases first : (follow g owner field w).result with
      | error e => rw [first] at h; cases h
      | ok next =>
          rw [first] at h
          rw [ih h, pending_follow first]

/-- A step that takes an id leaves one fewer pending. -/
theorem pending_step {g : Graph} {w w' : Walk} (waiting : w.queue ≠ [])
    (h : (w.step g).result = .ok w') : w'.pending g < w.pending g := by
  unfold step at h
  split at h
  · next empty => exact absurd empty waiting
  · next id rest taken =>
      have fewer : pending g { w with queue := rest } < w.pending g := by
        simp [pending, unmet, taken]
      split at h
      · rw [pending_expand h]
        exact fewer
      · cases h
        exact fewer

/-- Take steps until nothing waits. -/
def run (g : Graph) (w : Walk) : Traced TranslateError Walk :=
  if waiting : w.queue = [] then pure w
  else
    let taken := w.step g
    match h : taken.result with
    | .error e => ⟨taken.events, .error e⟩
    | .ok next =>
        have : next.pending g < w.pending g := pending_step waiting h
        let rest := run g next
        ⟨taken.events ++ rest.events, rest.result⟩
termination_by w.pending g

theorem run_of_nil {g : Graph} {w : Walk} (h : w.queue = []) : run g w = pure w := by
  rw [run, dif_pos h]

/-- A walk that is not over is a step and the walk from there. -/
theorem run_of_ne_nil {g : Graph} {w : Walk} (h : w.queue ≠ []) :
    run g w = (w.step g >>= run g) := by
  rw [run, dif_neg h]
  dsimp only
  split
  · next e failed => rw [Traced.bind_of_error failed]
  · next next done => rw [Traced.bind_of_ok done]

end Walk

namespace Graph

/-- The root, which has to be an object with a name. -/
def rootObject (g : Graph) : Except TranslateError ObjectType :=
  match g.get? g.root with
  | none => .error (.invalidGraph (.rootMissing g.root))
  | some (.object o) =>
      if o.name = "" then .error (.invalidGraph .rootUnnamed) else .ok o
  | some _ => .error (.invalidGraph (.rootNotObject g.rootName))

/-- Walk from the root and report what is met. -/
def walk (g : Graph) : Traced TranslateError (List TypeId) := do
  let root ← Traced.ofExcept g.rootObject
  let w ← (Walk.start g.root).run g
  Traced.report (.walked root.name w.emitted.length)
  return w.emitted

/-- Ids of the types that a document has blocks for, in order. -/
def emissionList (g : Graph) : Except TranslateError (List TypeId) := g.walk.result

/-- Names of the types that a document has blocks for, in order. -/
def namesOf (g : Graph) (ids : List TypeId) : List String :=
  ids.filterMap fun id => (g.get? id).map TypeNode.name

end Graph

end Protograph
