import Protograph.Proofs.Schema.Ledger
import Protograph.Proofs.Proto.Blocks

/-! # Interning — one scalar to a name, and whose kind it has

    A scalar is asked for by its kind and found by its name.  Two kinds can
    have one name, a well-known kind and the custom one that is called like it
    (`ScalarKind.eq_or_homonym`), and then it matters who asks first: the
    first call for a name decides what is declared under it
    (`find?_of_mem_declaredBy`), and every later call is given just that.

    From then on the kind stays, since nothing adds to a scalar, and so does
    the way in which fields that refer to it are written or refused. -/

namespace Protograph

variable {calls : List Call} {c : Call} {node : TypeNode} {name : String}

/-! ## Kinds of one name -/

namespace ScalarKind

theorem wellKnown_or_custom (k : ScalarKind) : k ∈ wellKnown ∨ ∃ n, k = .custom n := by
  cases k with
  | custom n => exact Or.inr ⟨n, rfl⟩
  | _ => exact Or.inl (by decide)

/-- A well-known kind can be read off its name. -/
theorem ofName_name {k : ScalarKind} (known : k ∈ wellKnown) : ofName k.name = k := by
  have all : ∀ k ∈ wellKnown, ofName k.name = k := by decide
  exact all k known

/-- Two kinds of one name are the same, or else one is well known and the other the custom kind
    that is called like it. -/
theorem eq_or_homonym {k k' : ScalarKind} (same : k.name = k'.name) : k = k'
    ∨ k = .custom k'.name ∧ k' ∈ wellKnown ∨ k' = .custom k.name ∧ k ∈ wellKnown := by
  rcases k.wellKnown_or_custom with known | ⟨n, rfl⟩
  · rcases k'.wellKnown_or_custom with known' | ⟨n', rfl⟩
    · rw [← ofName_name known, ← ofName_name known', same]
      exact Or.inl rfl
    · exact Or.inr (Or.inr ⟨congrArg custom same.symm, known⟩)
  · rcases k'.wellKnown_or_custom with known' | ⟨n', rfl⟩
    · exact Or.inr (Or.inl ⟨congrArg custom same, known'⟩)
    · exact Or.inl (congrArg custom same)

end ScalarKind

/-! ## The first call for a name -/

/-- A call that asks for a type of that name. -/
def Call.asksFor (name : String) (c : Call) : Bool := c.node?.map TypeNode.name == some name

theorem Call.asksFor_iff :
    c.asksFor name = true ↔ ∃ node, c.node? = some node ∧ node.name = name := by
  rw [asksFor, beq_iff_eq, Option.map_eq_some_iff]

/-- A name that has been asked for is declared. -/
theorem mem_declaredBy_of_asks (inside : c ∈ calls) (asks : c.node? = some node) :
    node.name ∈ (declaredBy calls).map TypeNode.name := by
  induction calls using List.reverseRecOn with
  | nil => exact nomatch inside
  | append_singleton calls d ih =>
      rw [declaredBy_concat]
      rcases List.mem_append.1 inside with before | last
      · exact ((prefix_declareNew _ d).map TypeNode.name).subset (ih before)
      · rw [List.mem_singleton.1 last] at asks
        by_cases old : node.name ∈ (declaredBy calls).map TypeNode.name
        · exact ((prefix_declareNew _ d).map TypeNode.name).subset old
        · rw [declareNew_of_new asks old, List.map_append]
          exact List.mem_append_right _ List.mem_cons_self

/-- What is declared under a name is what the first call for the name has asked for. -/
theorem find?_of_mem_declaredBy (declared : node ∈ declaredBy calls) :
    ∃ c, calls.find? (Call.asksFor node.name) = some c ∧ c.node? = some node := by
  induction calls using List.reverseRecOn with
  | nil => exact nomatch declared
  | append_singleton calls d ih =>
      by_cases before : node ∈ declaredBy calls
      · obtain ⟨c, first, asks⟩ := ih before
        refine ⟨c, ?_, asks⟩
        rw [List.find?_append, first]
        rfl
      · -- the last call declares it, so its name has been free until then
        rw [declaredBy_concat] at declared
        have asks := (mem_declareNew declared).resolve_left before
        have new : node.name ∉ (declaredBy calls).map TypeNode.name := by
          intro old
          refine before ?_
          rwa [declareNew_of_old fun x same => ?_] at declared
          rw [asks] at same
          cases same
          exact old
        have unasked : calls.find? (Call.asksFor node.name) = none := by
          refine List.find?_eq_none.2 fun c inside asked => ?_
          obtain ⟨x, asks', same⟩ := Call.asksFor_iff.1 asked
          rw [← same] at new
          exact new (mem_declaredBy_of_asks inside asks')
        refine ⟨d, ?_, asks⟩
        rw [List.find?_append, unasked, List.find?_singleton,
          if_pos (Call.asksFor_iff.2 ⟨node, asks, rfl⟩)]
        rfl

/-- A scalar has the kind of the first call for its name. -/
theorem Ledger.find?_of_scalar {b : Builder} {id : TypeId} {kind : ScalarKind} (h : Ledger calls b)
    (there : b.types[id]? = some (.scalar kind)) :
    calls.find? (Call.asksFor kind.name) = some (.scalar kind) := by
  obtain ⟨bare, declared, grown⟩ := h.declared there
  cases bare with
  | scalar kind' =>
      cases grown
      obtain ⟨c, first, asks⟩ := find?_of_mem_declaredBy (List.mem_of_getElem? declared)
      cases c with
      | scalar k =>
          cases asks
          exact first
      | _ => cases asks
  | _ => cases grown

/-! ## Scalars in use -/

/-- A field that refers to a scalar is written with the primitive of its kind, or refused with its
    name. -/
theorem Graph.messageField_of_scalar {g : Graph} {owner : String} {field : Field TypeId}
    {kind : ScalarKind} (there : g.get? field.type.target = some (.scalar kind))
    (flat : field.type.listDepth ≤ 1) :
    (∀ p, kind.primitive? = some p → g.messageField owner field
        = .ok ⟨field.type.listDepth == 1, .primitive p, field.name⟩) ∧
      (kind.primitive? = none → g.messageField owner field
        = .error (.unmappedScalar owner field.name kind.name)) := by
  have base : g.messageField owner field = (g.baseType owner field).map fun base =>
      ⟨field.type.listDepth == 1, base, field.name⟩ := by
    rw [messageField, if_neg (Nat.not_lt.2 flat)]
  rw [base, baseType, there]
  dsimp only
  constructor
  · intro p mapped
    rw [mapped]
    rfl
  · intro unmapped
    rw [unmapped]
    rfl

namespace Builder

variable {b b' : Builder} {id : TypeId} {kind : ScalarKind}

/-- What a scalar call gives is a scalar of the name that has been asked for. -/
theorem scalar_ok (coherent : Coherent b.types b.names) (h : b.scalar kind = .ok (id, b')) :
    b.call (.scalar kind) = .ok (.declared id, b') ∧
      ∃ first, b'.types[id]? = some (.scalar first) ∧ first.name = kind.name := by
  have done : b.call (.scalar kind) = .ok (.declared id, b') := by
    rw [call, h]
    rfl
  refine ⟨done, ?_⟩
  cases granted_of_call done with
  | declared asks free =>
      cases asks
      exact ⟨kind, by simp [push], rfl⟩
  | interned taken there => exact ⟨_, there, coherent.name_eq taken there⟩

/-- **WHO ASKS FIRST DECIDES**: the scalar that a call is given has the kind of the first call for
    its name, and keeps it whatever is called later.  It is the kind asked for, or else one of the
    two is well known and the other the custom kind that is called like it.  A field that refers
    to it is written with the primitive of that kind, or refused with the name asked for. -/
theorem scalar_interned {history : List Call} (h : (run {} history).scalar kind = .ok (id, b)) :
    ∃ first : ScalarKind,
      (granted {} (history ++ [.scalar kind])).find? (Call.asksFor kind.name)
          = some (.scalar first) ∧
      first.name = kind.name ∧
      (first = kind ∨ first = .custom kind.name ∧ kind ∈ ScalarKind.wellKnown
        ∨ kind = .custom first.name ∧ first ∈ ScalarKind.wellKnown) ∧
      (∀ more, (b.run more).types[id]? = some (.scalar first)) ∧
      ∀ (more : List Call) (root : TypeId) (g : Graph), (b.run more).build root = .ok g →
        ∀ (owner : String) (field : Field TypeId), field.type.target = id →
          field.type.listDepth ≤ 1 →
          (∀ p, first.primitive? = some p → g.messageField owner field
              = .ok ⟨field.type.listDepth == 1, .primitive p, field.name⟩) ∧
            (first.primitive? = none → g.messageField owner field
              = .error (.unmappedScalar owner field.name kind.name)) := by
  obtain ⟨done, first, there, same⟩ := scalar_ok (ledger_run history).coherent h
  have reached : b = run {} (history ++ [.scalar kind]) := by
    rw [run_append, run_cons, run_nil, step_of_ok done]
  subst reached
  have stays : ∀ more, ((run {} (history ++ [.scalar kind])).run more).types[id]?
      = some (.scalar first) := by
    intro more
    rw [← run_append, types_run_append _ more there]
    rfl
  refine ⟨first, ?_, same, ScalarKind.eq_or_homonym same, stays, ?_⟩
  · rw [← same]
    exact (ledger_run _).find?_of_scalar there
  · intro more root g finished owner field refers flat
    obtain ⟨rfl, -⟩ := build_ok finished
    rw [← same]
    refine Graph.messageField_of_scalar ?_ flat
    rw [refers]
    exact stays more

/-- `Int` as a scalar of the schema's own. -/
def homonymCalls : List Call := [.object "Query", .scalar (.custom "Int")]

theorem homonym_interned :
    (run {} homonymCalls).scalar .int = .ok (1, run {} homonymCalls) ∧
    ∃ first : ScalarKind,
      (granted {} (homonymCalls ++ [.scalar .int])).find? (Call.asksFor "Int")
          = some (.scalar first) ∧
      ∀ more, ((run {} homonymCalls).run more).types[1]? = some (.scalar first) := by
  have done : (run {} homonymCalls).scalar .int = .ok (1, run {} homonymCalls) := by decide
  obtain ⟨first, asked, -, -, stays, -⟩ := scalar_interned done
  exact ⟨done, first, asked, stays⟩

/-- The well-known `Int` is asked for, and what is given is the custom one, so that a field of it
    has no primitive. -/
theorem homonym_not_asked_for :
    (run {} homonymCalls).scalar .int = .ok (1, run {} homonymCalls) ∧
    (run {} homonymCalls).types[1]? = some (.scalar (.custom "Int")) ∧
    (run {} homonymCalls).types[1]? ≠ some (.scalar .int) ∧
    ScalarKind.int.primitive? = some .int32 ∧
    ∃ g, ((run {} homonymCalls).run [.field 0 "count" (.named 1)]).build 0 = .ok g ∧
      g.messageField "Query" ⟨"count", .named 1⟩
        = .error (.unmappedScalar "Query" "count" "Int") :=
  ⟨by decide, by decide, by decide, rfl, _, rfl, by decide⟩

end Builder

end Protograph
