import Protograph.Proofs.Reports
import Protograph.Proofs.Schema.Index

/-! # Ledger — a builder holds what it has granted, and nothing else

    A history leaves two traces: the answers to its calls (`transcript`) and
    the calls that were granted (`granted`).  The second is all that counts.

    * A refused call changes nothing, so the granted calls alone get the same
      answers and lead to the same builder (`transcript_granted`,
      `run_granted`).
    * The arena can be written down from the granted calls without running
      them: a type is declared by the first call for its name
      (`declaredBy`), and has behind what it was declared with all that later
      calls added to its id, in their order (`typeBy`).  One granted call
      keeps this (`ledger_granted`), so every history does (`ledger_run`).
    * What is declared decides how the next call is answered
      (`Answers`, `Ledger.answer_iff`). -/

namespace Protograph

variable {b b' : Builder} {calls : List Call} {c : Call} {r : Reply} {id : TypeId}

/-! ## Histories, written down -/

namespace Builder

/-- The calls of a history, each with its answer. -/
def transcript (b : Builder) : List Call → List (Call × Except SchemaError Reply)
  | [] => []
  | c :: cs => (c, b.answer c) :: (b.step c).transcript cs

/-- The calls of a history that are granted, in order. -/
def granted (b : Builder) (history : List Call) : List Call :=
  ((b.transcript history).filter (·.2.isOk)).map (·.1)

theorem transcript_append (b : Builder) (cs ds : List Call) :
    b.transcript (cs ++ ds) = b.transcript cs ++ (b.run cs).transcript ds := by
  induction cs generalizing b with
  | nil => rfl
  | cons c cs ih => rw [List.cons_append, transcript, transcript, ih, run_cons, List.cons_append]

theorem granted_append (b : Builder) (cs ds : List Call) :
    b.granted (cs ++ ds) = b.granted cs ++ (b.run cs).granted ds := by
  rw [granted, transcript_append, List.filter_append, List.map_append]
  rfl

theorem step_of_ok (h : b.call c = .ok (r, b')) : b.step c = b' := by
  rw [step, h]

theorem step_of_error {e : SchemaError} (h : b.call c = .error e) : b.step c = b := by
  rw [step, h]

theorem transcript_cons_of_ok (h : b.call c = .ok (r, b')) (cs : List Call) :
    b.transcript (c :: cs) = (c, .ok r) :: b'.transcript cs := by
  rw [transcript, step_of_ok h, answer, h]
  rfl

theorem transcript_cons_of_error {e : SchemaError} (h : b.call c = .error e) (cs : List Call) :
    b.transcript (c :: cs) = (c, .error e) :: b.transcript cs := by
  rw [transcript, step_of_error h, answer, h]
  rfl

theorem granted_cons_of_ok (h : b.call c = .ok (r, b')) (cs : List Call) :
    b.granted (c :: cs) = c :: b'.granted cs := by
  rw [granted, transcript_cons_of_ok h]
  rfl

theorem granted_cons_of_error {e : SchemaError} (h : b.call c = .error e) (cs : List Call) :
    b.granted (c :: cs) = b.granted cs := by
  rw [granted, transcript_cons_of_error h]
  rfl

/-- Without the refused calls the others are answered as before. -/
theorem transcript_granted (b : Builder) (history : List Call) :
    b.transcript (b.granted history) = (b.transcript history).filter (·.2.isOk) := by
  induction history generalizing b with
  | nil => rfl
  | cons c cs ih =>
      cases done : b.call c with
      | error e =>
          rw [granted_cons_of_error done, transcript_cons_of_error done, ih]
          rfl
      | ok next =>
          rw [granted_cons_of_ok done, transcript_cons_of_ok done, transcript_cons_of_ok done, ih]
          rfl

/-- Without the refused calls the builder is the same. -/
theorem run_granted (b : Builder) (history : List Call) :
    b.run (b.granted history) = b.run history := by
  induction history generalizing b with
  | nil => rfl
  | cons c cs ih =>
      cases done : b.call c with
      | error e => rw [granted_cons_of_error done, run_cons, step_of_error done, ih]
      | ok next => rw [granted_cons_of_ok done, run_cons, run_cons, step_of_ok done, ih]

end Builder

/-! ## Arenas, written down -/

/-- The type that a call adds to. -/
def Call.owner? : Call → Option TypeId
  | .field owner _ _ => some owner
  | .value owner _ => some owner
  | _ => none

/-- A type with some more fields or values. -/
def TypeNode.grow (fields : List (Field TypeId)) (values : List String) : TypeNode → TypeNode
  | .object o => .object { o with fields := o.fields ++ fields }
  | .enum e => .enum { e with values := e.values ++ values }
  | other => other

/-- The types that have been declared, and the one that a call declares behind them, if it asks
    for one under a new name. -/
def declareNew (declared : List TypeNode) (c : Call) : List TypeNode :=
  match c.node? with
  | some node =>
      if node.name ∈ declared.map TypeNode.name then declared else declared ++ [node]
  | none => declared

/-- The types that calls declare, as they are declared, in order. -/
def declaredBy (calls : List Call) : List TypeNode := calls.foldl declareNew []

/-- The fields that calls give to an id, in order. -/
def fieldsOn (id : TypeId) (calls : List Call) : List (Field TypeId) :=
  calls.filterMap fun
    | .field owner name type => if owner = id then some ⟨name, type⟩ else none
    | _ => none

/-- The values that calls give to an id, in order. -/
def valuesOn (id : TypeId) (calls : List Call) : List String :=
  calls.filterMap fun
    | .value owner name => if owner = id then some name else none
    | _ => none

/-- The type at an id, as the calls have it. -/
def typeBy (calls : List Call) (id : TypeId) : Option TypeNode :=
  ((declaredBy calls)[id]?).map (TypeNode.grow (fieldsOn id calls) (valuesOn id calls))

/-- How a call is answered where some types are declared. -/
inductive Answers (declared : List TypeNode) : Call → Reply → Prop where
  /-- A type under a new name takes the next id. -/
  | fresh {c : Call} {node : TypeNode} (asks : c.node? = some node)
      (new : node.name ∉ declared.map TypeNode.name) :
      Answers declared c (.declared declared.length)
  /-- A scalar under the name of a scalar is the one that is there. -/
  | again {kind kind' : ScalarKind} {id : TypeId} (there : declared[id]? = some (.scalar kind'))
      (same : kind'.name = kind.name) : Answers declared (.scalar kind) (.declared id)
  | field {owner : TypeId} {name : String} {type : TypeRef TypeId} {o : ObjectType}
      (inside : type.target < declared.length) (there : declared[owner]? = some (.object o)) :
      Answers declared (.field owner name type) .added
  | value {owner : TypeId} {name : String} {e : EnumType}
      (there : declared[owner]? = some (.enum e)) : Answers declared (.value owner name) .added

@[simp] theorem TypeNode.name_grow (fields : List (Field TypeId)) (values : List String)
    (node : TypeNode) : (node.grow fields values).name = node.name := by
  cases node <;> rfl

@[simp] theorem TypeNode.grow_nil (node : TypeNode) : node.grow [] [] = node := by
  cases node <;> simp [grow]

/-- A type grows by one list after the other. -/
theorem TypeNode.grow_append (fields more : List (Field TypeId)) (values others : List String)
    (node : TypeNode) :
    node.grow (fields ++ more) (values ++ others) = (node.grow fields values).grow more others := by
  cases node <;> simp [grow]

theorem fieldsOn_append (id : TypeId) (calls more : List Call) :
    fieldsOn id (calls ++ more) = fieldsOn id calls ++ fieldsOn id more :=
  List.filterMap_append ..

theorem valuesOn_append (id : TypeId) (calls more : List Call) :
    valuesOn id (calls ++ more) = valuesOn id calls ++ valuesOn id more :=
  List.filterMap_append ..

theorem fieldsOn_field (owner : TypeId) (name : String) (type : TypeRef TypeId) :
    fieldsOn owner [.field owner name type] = [⟨name, type⟩] := by
  simp [fieldsOn]

theorem valuesOn_value (owner : TypeId) (name : String) :
    valuesOn owner [.value owner name] = [name] := by
  simp [valuesOn]

/-- Calls that add to other types give this one no fields. -/
theorem fieldsOn_eq_nil (others : ∀ c ∈ calls, c.owner? ≠ some id) : fieldsOn id calls = [] := by
  refine List.filterMap_eq_nil_iff.2 fun c inside => ?_
  cases c with
  | field owner name type =>
      refine if_neg fun same => others _ inside ?_
      rw [Call.owner?, same]
  | _ => rfl

/-- Calls that add to other types give this one no values. -/
theorem valuesOn_eq_nil (others : ∀ c ∈ calls, c.owner? ≠ some id) : valuesOn id calls = [] := by
  refine List.filterMap_eq_nil_iff.2 fun c inside => ?_
  cases c with
  | value owner name =>
      refine if_neg fun same => others _ inside ?_
      rw [Call.owner?, same]
  | _ => rfl

/-- A call that declares a type adds to none. -/
theorem Call.owner?_of_node? {node : TypeNode} (asks : c.node? = some node) : c.owner? = none := by
  cases c with
  | field owner name type => cases asks
  | value owner name => cases asks
  | _ => rfl

theorem declaredBy_concat (calls : List Call) (c : Call) :
    declaredBy (calls ++ [c]) = declareNew (declaredBy calls) c := by
  rw [declaredBy, List.foldl_append]
  rfl

theorem declareNew_of_new {declared : List TypeNode} {node : TypeNode} (asks : c.node? = some node)
    (new : node.name ∉ declared.map TypeNode.name) : declareNew declared c = declared ++ [node] := by
  rw [declareNew, asks]
  exact if_neg new

theorem declareNew_of_old {declared : List TypeNode}
    (old : ∀ node, c.node? = some node → node.name ∈ declared.map TypeNode.name) :
    declareNew declared c = declared := by
  rw [declareNew]
  split
  · next node asks => exact if_pos (old node asks)
  · rfl

theorem mem_declareNew {declared : List TypeNode} {node : TypeNode}
    (inside : node ∈ declareNew declared c) : node ∈ declared ∨ c.node? = some node := by
  rw [declareNew] at inside
  split at inside
  · next other asks =>
      split at inside
      · exact Or.inl inside
      · rcases List.mem_append.1 inside with before | last
        · exact Or.inl before
        · rw [List.mem_singleton.1 last]
          exact Or.inr asks
  · exact Or.inl inside

theorem prefix_declareNew (declared : List TypeNode) (c : Call) :
    declared <+: declareNew declared c := by
  rw [declareNew]
  split
  · split
    · exact List.prefix_rfl
    · exact List.prefix_append declared _
  · exact List.prefix_rfl

/-- What is declared stays declared. -/
theorem prefix_declaredBy (calls more : List Call) :
    declaredBy calls <+: declaredBy (calls ++ more) := by
  induction more using List.reverseRecOn with
  | nil => rw [List.append_nil]
  | append_singleton more c ih =>
      rw [← List.append_assoc, declaredBy_concat]
      exact ih.trans (prefix_declareNew _ c)

/-- A type is declared bare, and so an object has no fields then. -/
theorem targets_of_mem_declaredBy {node : TypeNode} (declared : node ∈ declaredBy calls) :
    node.targets = [] := by
  induction calls using List.reverseRecOn with
  | nil => exact nomatch declared
  | append_singleton calls c ih =>
      rw [declaredBy_concat] at declared
      rcases mem_declareNew declared with before | asks
      · exact ih before
      · exact c.targets_node asks

/-- A call that declares nothing adds to the types that are there. -/
theorem typeBy_concat (same : declareNew (declaredBy calls) c = declaredBy calls) (id : TypeId) :
    typeBy (calls ++ [c]) id
      = (typeBy calls id).map (TypeNode.grow (fieldsOn id [c]) (valuesOn id [c])) := by
  rw [typeBy, declaredBy_concat, same, typeBy, Option.map_map, fieldsOn_append, valuesOn_append]
  congr 1
  funext node
  exact node.grow_append _ _ _ _

/-- A call that declares a type puts it behind the others. -/
theorem typeBy_concat_new {node : TypeNode} (asks : c.node? = some node)
    (new : node.name ∉ (declaredBy calls).map TypeNode.name)
    (untouched : ∀ d ∈ calls, d.owner? ≠ some (declaredBy calls).length) (id : TypeId) :
    typeBy (calls ++ [c]) id
      = if id = (declaredBy calls).length then some node else typeBy calls id := by
  have adds : ∀ d ∈ [c], d.owner? ≠ some id := by
    intro d last
    rw [List.mem_singleton.1 last, Call.owner?_of_node? asks]
    exact Option.some_ne_none id ∘ Eq.symm
  rw [typeBy, declaredBy_concat, declareNew_of_new asks new, fieldsOn_append, valuesOn_append,
    fieldsOn_eq_nil adds, valuesOn_eq_nil adds, List.append_nil, List.append_nil]
  by_cases last : id = (declaredBy calls).length
  · -- an id that was not taken before has had nothing added to it
    subst last
    rw [if_pos rfl, List.getElem?_concat_length, fieldsOn_eq_nil untouched,
      valuesOn_eq_nil untouched, Option.map_some, TypeNode.grow_nil]
  · rw [if_neg last, typeBy]
    congr 1
    rcases Nat.lt_or_gt_of_ne last with below | above
    · exact List.getElem?_append_left below
    · rw [List.getElem?_eq_none (Nat.le_of_lt above), List.getElem?_eq_none]
      rw [List.length_append, List.length_singleton]
      exact above

/-- Whatever is called later, a type only grows. -/
theorem typeBy_append {node : TypeNode} (there : typeBy calls id = some node) (more : List Call) :
    typeBy (calls ++ more) id = some (node.grow (fieldsOn id more) (valuesOn id more)) := by
  obtain ⟨bare, declared, rfl⟩ := Option.map_eq_some_iff.1 there
  obtain ⟨others, behind⟩ := prefix_declaredBy calls more
  have still : (declaredBy (calls ++ more))[id]? = some bare := by
    rw [← behind, List.getElem?_append_left (List.getElem?_eq_some_iff.1 declared).1]
    exact declared
  rw [typeBy, still, fieldsOn_append, valuesOn_append, Option.map_some, TypeNode.grow_append]

/-! ## The builder and its ledger -/

/-- A builder that has what some granted calls say. -/
structure Ledger (calls : List Call) (b : Builder) : Prop where
  coherent : Coherent b.types b.names
  types : ∀ id, b.types[id]? = typeBy calls id
  owners : ∀ c ∈ calls, ∀ owner, c.owner? = some owner → owner < b.types.size

namespace Ledger

theorem names (h : Ledger calls b) :
    b.types.toList.map TypeNode.name = (declaredBy calls).map TypeNode.name := by
  ext1 id
  rw [List.getElem?_map, List.getElem?_map, Array.getElem?_toList, h.types, typeBy, Option.map_map]
  congr 1
  funext node
  exact node.name_grow _ _

theorem size_eq (h : Ledger calls b) : b.types.size = (declaredBy calls).length := by
  have lengths := congrArg List.length h.names
  rwa [List.length_map, List.length_map, Array.length_toList] at lengths

theorem free_iff {name : String} (h : Ledger calls b) :
    b.lookup name = none ↔ name ∉ (declaredBy calls).map TypeNode.name := by
  rw [← h.names]
  exact h.coherent.free_iff

/-- Nothing has been added to an id that is not there yet. -/
theorem owner_ne (h : Ledger calls b) (c : Call) (inside : c ∈ calls) :
    c.owner? ≠ some b.types.size := by
  intro adds
  exact Nat.lt_irrefl _ (h.owners c inside _ adds)

end Ledger

theorem ledger_nil : Ledger [] {} where
  coherent := coherent_empty
  types id := by simp [typeBy, declaredBy]
  owners c inside := nomatch inside

/-- A granted call adds to a type that is there, if it adds to any. -/
theorem Builder.Granted.owner_lt {owner : TypeId} (granted : Granted b c r b')
    (adds : c.owner? = some owner) : owner < b.types.size := by
  cases granted with
  | declared asks free =>
      rw [Call.owner?_of_node? asks] at adds
      cases adds
  | interned taken there => cases adds
  | field inside there =>
      cases adds
      exact (Array.getElem?_eq_some_iff.1 there).1
  | value there =>
      cases adds
      exact (Array.getElem?_eq_some_iff.1 there).1

theorem Builder.Granted.size_le (granted : Granted b c r b') : b.types.size ≤ b'.types.size := by
  cases granted with
  | declared asks free =>
      rw [push, Array.size_push]
      exact Nat.le_succ _
  | interned taken there => exact Nat.le_refl _
  | field inside there => rw [put, Array.size_modify]
  | value there => rw [put, Array.size_modify]

/-- Of a call that adds to a type only the type at its id takes notice. -/
theorem Ledger.put {owner : TypeId} {old : TypeNode} (h : Ledger calls b)
    (adds : c.owner? = some owner) (there : b.types[owner]? = some old) (id : TypeId) :
    (b.put owner (old.grow (fieldsOn owner [c]) (valuesOn owner [c]))).types[id]?
      = typeBy (calls ++ [c]) id := by
  have declares : c.node? = none := by
    cases c with
    | field owner name type => rfl
    | value owner name => rfl
    | _ => cases adds
  rw [typeBy_concat (declareNew_of_old (by simp [declares])), ← h.types, Builder.put,
    Array.getElem?_modify]
  by_cases here : owner = id
  · subst here
    rw [if_pos rfl, there]
    rfl
  · have others : ∀ d ∈ [c], d.owner? ≠ some id := by
      intro d last
      rw [List.mem_singleton.1 last, adds]
      exact here ∘ Option.some.inj
    rw [if_neg here, fieldsOn_eq_nil others, valuesOn_eq_nil others]
    cases b.types[id]? with
    | none => rfl
    | some node => rw [Option.map_some, TypeNode.grow_nil]

/-- A call that is granted is one entry more. -/
theorem ledger_granted (h : Ledger calls b) (granted : Builder.Granted b c r b') :
    Ledger (calls ++ [c]) b' where
  coherent := Builder.coherent_granted h.coherent granted
  owners := by
    intro d inside owner adds
    refine Nat.lt_of_lt_of_le ?_ granted.size_le
    rcases List.mem_append.1 inside with before | last
    · exact h.owners d before owner adds
    · rw [List.mem_singleton.1 last] at adds
      exact granted.owner_lt adds
  types := by
    intro id
    -- the arena before and after are both known by their calls, so each case is about `typeBy` only
    cases granted with
    | @declared _ node asks free =>
        have untouched := h.owner_ne
        rw [h.size_eq] at untouched
        rw [typeBy_concat_new asks (h.free_iff.1 free) untouched, Builder.push,
          Array.getElem?_push, h.size_eq, h.types]
    | @interned kind kind' other taken there =>
        -- the name is taken, so nothing is declared
        have old : kind.name ∈ (declaredBy calls).map TypeNode.name := by
          by_contra new
          rw [h.free_iff.2 new] at taken
          cases taken
        have same : declareNew (declaredBy calls) (.scalar kind) = declaredBy calls := by
          refine declareNew_of_old ?_
          intro node asks
          cases asks
          exact old
        rw [typeBy_concat same, ← h.types]
        cases b.types[id]? with
        | none => rfl
        | some node => exact congrArg some node.grow_nil.symm
    | @field owner name type o inside there =>
        have grown := h.put (c := .field owner name type) rfl there id
        rw [fieldsOn_field] at grown
        exact grown
    | @value owner name e there =>
        have grown := h.put (c := .value owner name) rfl there id
        rw [valuesOn_value] at grown
        exact grown

/-- Every history leaves a builder that has what the granted calls say. -/
theorem ledger_run (history : List Call) :
    Ledger (Builder.granted {} history) (Builder.run {} history) := by
  -- from the back, since the ledger speaks of all calls from the empty builder on
  induction history using List.reverseRecOn with
  | nil => exact ledger_nil
  | append_singleton history c ih =>
      rw [Builder.granted_append, Builder.run_append, Builder.run_cons, Builder.run_nil]
      cases done : (Builder.run {} history).call c with
      | error e =>
          rw [Builder.granted_cons_of_error done, Builder.step_of_error done]
          show Ledger (_ ++ []) _
          rw [List.append_nil]
          exact ih
      | ok next =>
          obtain ⟨r, b'⟩ := next
          rw [Builder.granted_cons_of_ok done, Builder.step_of_ok done]
          exact ledger_granted ih (Builder.granted_of_call done)

namespace Builder

/-- As a history goes on, the type at an id grows by what the granted calls give to it. -/
theorem types_run_append {node : TypeNode} (history more : List Call)
    (there : (run {} history).types[id]? = some node) :
    (run {} (history ++ more)).types[id]?
      = some (node.grow (fieldsOn id ((run {} history).granted more))
          (valuesOn id ((run {} history).granted more))) := by
  rw [(ledger_run history).types] at there
  rw [(ledger_run (history ++ more)).types, granted_append]
  exact typeBy_append there _

/-- A type that no granted call adds to stays as it is. -/
theorem types_run_append_of_apart {node : TypeNode} (history more : List Call)
    (apart : ∀ c ∈ (run {} history).granted more, c.owner? ≠ some id)
    (there : (run {} history).types[id]? = some node) :
    (run {} (history ++ more)).types[id]? = some node := by
  rw [types_run_append history more there, fieldsOn_eq_nil apart, valuesOn_eq_nil apart,
    TypeNode.grow_nil]

end Builder

namespace Ledger

/-- What stands at an id has grown out of what is declared there. -/
theorem declared (h : Ledger calls b) {node : TypeNode} (there : b.types[id]? = some node) :
    ∃ bare, (declaredBy calls)[id]? = some bare ∧
      bare.grow (fieldsOn id calls) (valuesOn id calls) = node := by
  rw [h.types] at there
  exact Option.map_eq_some_iff.1 there

theorem stands (h : Ledger calls b) {bare : TypeNode} (there : (declaredBy calls)[id]? = some bare) :
    b.types[id]? = some (bare.grow (fieldsOn id calls) (valuesOn id calls)) := by
  rw [h.types, typeBy, there]
  rfl

theorem answers_of_granted (h : Ledger calls b) (granted : Builder.Granted b c r b') :
    Answers (declaredBy calls) c r := by
  cases granted with
  | declared asks free =>
      rw [h.size_eq]
      exact .fresh asks (h.free_iff.1 free)
  | interned taken there =>
      have same := h.coherent.name_eq taken there
      obtain ⟨bare, declared, grown⟩ := h.declared there
      -- growing does not change the sort of a type, so what was declared is a scalar too
      cases bare with
      | scalar kind =>
          cases grown
          exact .again declared same
      | _ => cases grown
  | field inside there =>
      rw [h.size_eq] at inside
      obtain ⟨bare, declared, grown⟩ := h.declared there
      cases bare with
      | object o => exact .field inside declared
      | _ => cases grown
  | value there =>
      obtain ⟨bare, declared, grown⟩ := h.declared there
      cases bare with
      | enum e => exact .value declared
      | _ => cases grown

theorem granted_of_answers (h : Ledger calls b) (answers : Answers (declaredBy calls) c r) :
    ∃ b', Builder.Granted b c r b' := by
  cases answers with
  | fresh asks new =>
      rw [← h.size_eq]
      exact ⟨_, .declared asks (h.free_iff.2 new)⟩
  | again there same =>
      have standing := h.stands there
      exact ⟨b, .interned ((h.coherent.indexed _ _).2 ⟨_, standing, same⟩) standing⟩
  | field inside there =>
      rw [← h.size_eq] at inside
      exact ⟨_, .field inside (h.stands there)⟩
  | value there => exact ⟨_, .value (h.stands there)⟩

/-- What is declared decides which calls are granted, and with which reply. -/
theorem answer_iff (h : Ledger calls b) : b.answer c = .ok r ↔ Answers (declaredBy calls) c r := by
  rw [Builder.answer, map_eq_ok]
  constructor
  · rintro ⟨⟨r, b'⟩, done, rfl⟩
    exact h.answers_of_granted (Builder.granted_of_call done)
  · intro answers
    obtain ⟨b', granted⟩ := h.granted_of_answers answers
    exact ⟨(r, b'), granted.call_eq, rfl⟩

theorem fields_eq (h : Ledger calls b) {o : ObjectType} (there : b.types[id]? = some (.object o)) :
    o.fields = fieldsOn id calls := by
  obtain ⟨bare, declared, grown⟩ := h.declared there
  have none := targets_of_mem_declaredBy (List.mem_of_getElem? declared)
  cases bare with
  | object o =>
      cases grown
      have empty : o.fields = [] := List.map_eq_nil_iff.1 none
      rw [empty, List.nil_append]
  | _ => cases grown

theorem values_eq (h : Ledger calls b) {e : EnumType} (there : b.types[id]? = some (.enum e)) :
    ∃ initial, (declaredBy calls)[id]? = some (.enum ⟨e.name, initial⟩) ∧
      e.values = initial ++ valuesOn id calls := by
  obtain ⟨bare, declared, grown⟩ := h.declared there
  cases bare with
  | enum e =>
      cases grown
      exact ⟨e.values, declared, rfl⟩
  | _ => cases grown

end Ledger

namespace Builder

/-- What a history has to do with the builder it leads to. -/
structure Accounts (history : List Call) (b : Builder) : Prop where
  /-- Without the refused calls the others are answered as before. -/
  answers : transcript {} (granted {} history) = (transcript {} history).filter (·.2.isOk)
  /-- Without the refused calls the builder is the same. -/
  builder : run {} (granted {} history) = b
  /-- At an id stands the type declared there, grown by the granted calls on the id. -/
  types : ∀ id, b.types[id]? = typeBy (granted {} history) id
  /-- An object has the fields of the granted calls on its id, in order. -/
  fields : ∀ (id : TypeId) (o : ObjectType), b.types[id]? = some (.object o) →
    o.fields = fieldsOn id (granted {} history)
  /-- An enum has the values it was declared with and those of the granted calls on its id. -/
  values : ∀ (id : TypeId) (e : EnumType), b.types[id]? = some (.enum e) →
    ∃ initial, (declaredBy (granted {} history))[id]? = some (.enum ⟨e.name, initial⟩) ∧
      e.values = initial ++ valuesOn id (granted {} history)
  /-- The next call is answered by what has been declared. -/
  next : ∀ (c : Call) (r : Reply),
    b.answer c = .ok r ↔ Answers (declaredBy (granted {} history)) c r

/-- **A BUILDER IS ITS HISTORY OF GRANTED CALLS**: refused calls leave no trace, in the builder or
    in the answers to other calls, and the granted ones are all there, in order and in the place
    they were made for. -/
theorem run_accounts (history : List Call) : Accounts history (run {} history) := by
  have ledger := ledger_run history
  exact
    { answers := transcript_granted {} history
      builder := run_granted {} history
      types := ledger.types
      fields := fun _ _ => ledger.fields_eq
      values := fun _ _ => ledger.values_eq
      next := fun _ _ => ledger.answer_iff }

/-- A value on an object and a second `Query` are refused; a scalar asked for again declares
    nothing, whatever its kind. -/
example :
    let calls : List Call :=
      [ .object "Query", .scalar .int, .value 0 "RED", .field 0 "count" (.named 1),
        .enumeration "Color" ["RED"], .scalar (.custom "Int"), .object "Query", .value 2 "BLUE" ]
    declaredBy (granted {} calls)
        = [.object ⟨"Query", []⟩, .scalar .int, .enum ⟨"Color", ["RED"]⟩] ∧
      typeBy (granted {} calls) 0 = some (.object ⟨"Query", [⟨"count", .named 1⟩]⟩) ∧
      typeBy (granted {} calls) 2 = some (.enum ⟨"Color", ["RED", "BLUE"]⟩) := by
  decide +kernel

end Builder

end Protograph
