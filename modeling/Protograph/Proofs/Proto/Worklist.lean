import Mathlib.Algebra.Order.BigOperators.Group.List
import Mathlib.Algebra.Order.Group.Nat
import Protograph.Proofs.Proto.BreadthFirst

/-! # The worklist — what the loop of the walk keeps, on any schema at all

    Nothing is asked of the schema here: ids may dangle, the root may be
    missing, the arena and the index may disagree.  `Walk.Passes` follows the
    loop from one look at the queue to the next.

    * What the walk has taken is in order what it has emitted, up to where the
      queue begins, and nothing is emitted twice (`Walk.Orderly`).  So the
      loop ends, within as many rounds as there are types.
    * The walk stops early in one case only, a field that points outside the
      schema.  Up to there it has gone through a beginning of the full
      breadth-first order (`Walk.Passes.isPrefix`), so the field it names is
      the first such field in that order (`Graph.FirstDangling`).

    The full order exists even where the walk does not get to its end: it is
    the emission of the same schema with scalars put behind its types until no
    field dangles (`Graph.padded`), since scalars have no fields and no blocks. -/

namespace Protograph

variable {g : Graph} {taken : List TypeId} {events : List Event} {w w' : Walk}

/-- The loop of the walk looks at its queue in the state `w`, after the ids
    `taken` have left the queue, in their order, and `events` have been
    reported. -/
inductive Walk.Passes (g : Graph) : List TypeId → List Event → Walk → Prop where
  | start {o : ObjectType} (root : g.rootObject = .ok o) : Passes g [] [] (Walk.start g.root)
  | step {taken rest : List TypeId} {events : List Event} {w w' : Walk} {id : TypeId}
      (before : Passes g taken events w) (front : w.queue = id :: rest)
      (done : (w.step g).result = .ok w') :
      Passes g (taken ++ [id]) (events ++ (w.step g).events) w'

/-- What the loop keeps. -/
structure Walk.Orderly (g : Graph) (taken : List TypeId) (w : Walk) : Prop where
  /-- The queue is the rest of the emitted ids behind those that have left it. -/
  queue : taken ++ w.queue = w.emitted
  /-- An id counts as met exactly when it has been emitted. -/
  visited : ∀ id, id ∈ w.visited ↔ id ∈ w.emitted
  distinct : w.emitted.Nodup
  inside : ∀ id ∈ w.emitted, id < g.size
  /-- No id leaves the queue twice, -/
  once : taken.Nodup
  /-- so the loop has gone round no more often than there are types. -/
  rounds : taken.length ≤ g.size

namespace Graph

/-- What can be wrong with the root. -/
inductive RootFault (g : Graph) : GraphFault → Prop where
  | missing (nothing : g.get? g.root = none) : RootFault g (.rootMissing g.root)
  | notObject {node : TypeNode} (there : g.get? g.root = some node) (other : node.object? = none) :
      RootFault g (.rootNotObject node.name)
  | unnamed {o : ObjectType} (there : g.get? g.root = some (.object o)) (empty : o.name = "") :
      RootFault g .rootUnnamed

/-- The field number `k`, from zero, of the object at an id points outside the
    schema, and that is how the walk puts it. -/
inductive DanglingAt (g : Graph) (id : TypeId) : Nat → TranslateError → Prop where
  | field {k : Nat} {o : ObjectType} {field : Field TypeId}
      (there : g.get? id = some (.object o)) (place : o.fields[k]? = some field)
      (outside : g.size ≤ field.type.target) :
      DanglingAt g id k (.invalidGraph (.danglingField o.name field.name field.type.target))

/-- The first field of all that points outside the schema, by the order of the
    ids and then by the order of declaration. -/
def FirstDangling (g : Graph) (ids : List TypeId) (e : TranslateError) : Prop :=
  ∃ i k id, ids[i]? = some id ∧ g.DanglingAt id k e ∧
    ∀ (j m : Nat) (other : TypeId) (d : TranslateError), ids[j]? = some other →
      g.DanglingAt other m d → i < j ∨ i = j ∧ k ≤ m

/-- All objects and enums that the root reaches, each once and in breadth-first
    order.  There is no other such list (`BreadthFirst.unique`). -/
structure FullOrder (g : Graph) (ids : List TypeId) : Prop where
  nodup : ids.Nodup
  mem_iff : ∀ id, id ∈ ids ↔ g.Reachable id ∧ g.HasBlock id
  order : g.BreadthFirst ids

/-! ## The root -/

theorem rootObject_error_iff {e : TranslateError} :
    g.rootObject = .error e ↔ ∃ fault, g.RootFault fault ∧ e = .invalidGraph fault := by
  constructor
  · intro h
    rw [rootObject] at h
    split at h
    · next nothing =>
        cases h
        exact ⟨_, .missing nothing, rfl⟩
    · next o there =>
        split at h
        · next empty =>
            cases h
            exact ⟨_, .unnamed there empty, rfl⟩
        · cases h
    · next node other there =>
        cases h
        rw [rootName_of_get there]
        refine ⟨_, .notObject there ?_, rfl⟩
        cases node with
        | object o => exact absurd rfl (other o)
        | _ => rfl
  · rintro ⟨fault, wrong, rfl⟩
    rw [rootObject]
    cases wrong with
    | missing nothing => rw [nothing]
    | @notObject node there other =>
        rw [there, ← rootName_of_get there]
        cases node with
        | object o => cases other
        | _ => rfl
    | unnamed there empty =>
        rw [there]
        exact if_pos empty

end Graph

/-! ## Going round -/

namespace Walk

variable {owner : ObjectType} {field : Field TypeId} {e : TranslateError}

theorem Passes.scanned (h : Passes g taken events w) : Scanned g taken (g.known taken) w := by
  induction h with
  | start root =>
      have there := (Graph.rootObject_ok_iff.1 root).1
      exact scanned_start (Graph.emits_iff.2 (Or.inl ⟨_, there⟩))
  | step before front done ih => exact scanned_step ih front done

/-- Each round keeps queue, marks and emitted ids in step. -/
theorem Passes.orderly (h : Passes g taken events w) : w.Orderly g taken := by
  have scanned := h.scanned
  have distinct : w.emitted.Nodup := by
    rw [scanned.emitted]
    exact (nodup_eraseDups _).filter _
  have inside : ∀ id ∈ w.emitted, id < g.size := by
    intro id member
    rw [scanned.emitted, List.mem_filter] at member
    rcases Graph.emits_iff.1 member.2 with ⟨o, there⟩ | ⟨e, there⟩
    · exact (g.get?_isSome_iff id).1 (by rw [there]; rfl)
    · exact (g.get?_isSome_iff id).1 (by rw [there]; rfl)
  have once : taken.Nodup := by
    rw [scanned.waiting] at distinct
    exact (List.nodup_append.1 distinct).1
  have rounds : taken.length ≤ g.size := by
    have among : taken ⊆ List.range g.size := by
      intro id member
      refine List.mem_range.2 (inside id ?_)
      rw [scanned.waiting]
      exact List.mem_append_left _ member
    have fewer := (once.subperm among).length_le
    rwa [List.length_range] at fewer
  refine ⟨scanned.waiting.symm, ?_, distinct, inside, once, rounds⟩
  intro id
  rw [scanned.visited, List.mem_reverse]

/-- The loop comes to an end: nothing waits any more, or the last round fails.
    All that the walk reports has been reported on the way there. -/
theorem run_ends (w : Walk) (taken : List TypeId) (events : List Event)
    (h : Passes g taken events w) :
    ∃ taken' events' last, Passes g taken' events' last ∧
      (last.queue = [] ∧ (run g w).result = .ok last ∧ events ++ (run g w).events = events' ∨
        ∃ e, (last.step g).result = .error e ∧ (run g w).result = .error e ∧
          events ++ (run g w).events = events' ++ (last.step g).events) := by
  by_cases drained : w.queue = []
  · refine ⟨taken, events, w, h, Or.inl ⟨drained, ?_, ?_⟩⟩
    · rw [run_of_nil drained]
      rfl
    · rw [run_of_nil drained]
      exact List.append_nil events
  · cases done : (w.step g).result with
    | error e =>
        refine ⟨taken, events, w, h, Or.inr ⟨e, done, ?_, ?_⟩⟩
        · rw [run_of_ne_nil drained, Traced.bind_of_error done]
        · rw [run_of_ne_nil drained, Traced.bind_of_error done]
    | ok next =>
        obtain ⟨id, rest, front⟩ := List.exists_cons_of_ne_nil drained
        have fewer := pending_step drained done
        have ends := run_ends next (taken ++ [id]) (events ++ (w.step g).events) (h.step front done)
        rw [run_of_ne_nil drained, Traced.bind_of_ok done, ← List.append_assoc]
        exact ends
termination_by w.pending g

/-! ## The field that stops the walk -/

theorem follow_error_iff : (follow g owner field w).result = .error e
    ↔ g.size ≤ field.type.target
      ∧ e = .invalidGraph (.danglingField owner.name field.name field.type.target) := by
  have outside : g.get? field.type.target = none ↔ g.size ≤ field.type.target := by
    rw [← Option.not_isSome_iff_eq_none, Graph.get?_isSome_iff, Nat.not_lt]
  rw [follow, ← outside]
  cases g.get? field.type.target with
  | none => simp [Traced.ofExcept, eq_comm]
  | some node =>
      dsimp only
      split
      · simp
      · simp

/-- The fields of an object fail with the first that points outside the schema. -/
theorem expand_error_iff {fields : List (Field TypeId)} :
    (expand g owner fields w).result = .error e
      ↔ ∃ k, First (fun k e => ∃ field, fields[k]? = some field ∧ g.size ≤ field.type.target
          ∧ e = .invalidGraph (.danglingField owner.name field.name field.type.target)) k e := by
  induction fields generalizing w with
  | nil =>
      constructor
      · intro h
        cases h
      · rintro ⟨k, ⟨field, there, -⟩, -⟩
        cases there
  | cons field fields ih =>
      rw [expand, Traced.result_bind, exists_first_succ]
      have front : ∀ d, (∃ f, (field :: fields)[0]? = some f ∧ g.size ≤ f.type.target
          ∧ d = .invalidGraph (.danglingField owner.name f.name f.type.target))
          ↔ (follow g owner field w).result = .error d := by
        intro d
        rw [follow_error_iff]
        simp
      simp only [front, List.getElem?_cons_succ]
      cases first : (follow g owner field w).result with
      | error d => simp [Except.bind]
      | ok next => simpa [Except.bind] using ih

/-- A round fails with the first field of the type it takes that points outside the schema. -/
theorem step_error_iff {id : TypeId} {rest : List TypeId} (front : w.queue = id :: rest) :
    (w.step g).result = .error e ↔ ∃ k, First (g.DanglingAt id) k e := by
  rw [step, front]
  dsimp only
  cases there : g.object? id with
  | none =>
      constructor
      · intro h
        cases h
      · rintro ⟨k, ⟨found, -, -⟩, -⟩
        rw [Graph.object?_eq_some_iff.2 found] at there
        cases there
  | some owner =>
      have found := Graph.object?_eq_some_iff.1 there
      dsimp only
      rw [expand_error_iff]
      refine exists_congr fun k => First.congr fun j d => ?_
      constructor
      · rintro ⟨field, place, outside, rfl⟩
        exact .field found place outside
      · rintro ⟨found', place, outside⟩
        rw [found] at found'
        cases found'
        exact ⟨_, place, outside, rfl⟩

/-- Nothing that has left the queue in a round that ended well dangles. -/
theorem Passes.sound (h : Passes g taken events w) :
    ∀ id ∈ taken, ∀ k e, ¬ g.DanglingAt id k e := by
  induction h with
  | start root =>
      intro id inside
      exact nomatch inside
  | @step taken rest events w w' id before front done ih =>
      intro other inside k e dangling
      rcases List.mem_append.1 inside with earlier | last
      · exact ih other earlier k e dangling
      · rw [List.mem_singleton.1 last] at dangling
        obtain ⟨m, d, first⟩ := exists_first dangling
        rw [(step_error_iff front).2 ⟨m, first⟩] at done
        cases done

/-- What has been emitted is a beginning of the emission, even if the walk does not get to its end. -/
theorem Scanned.isPrefix {looked ids : List TypeId} (h : Scanned g looked (g.known looked) w)
    (emission : g.Emission ids) (begins : looked <+: ids) : w.emitted <+: ids := by
  obtain ⟨behind, rfl⟩ := begins
  have complete := emission.complete
  rw [Graph.known, List.flatMap_append, ← List.cons_append, List.eraseDups_append,
    List.filter_append] at complete
  rw [h.emitted, complete]
  exact List.prefix_append _ _

theorem Passes.isPrefix {ids : List TypeId} (h : Passes g taken events w)
    (emission : g.Emission ids) : w.emitted <+: ids := by
  induction h with
  | start root => exact (Passes.start root).scanned.isPrefix emission List.nil_prefix
  | @step taken rest events w w' id before front done ih =>
      refine (before.step front done).scanned.isPrefix emission (List.IsPrefix.trans ?_ ih)
      -- the id that leaves the queue is the next of the emitted ones
      rw [before.scanned.waiting, front]
      exact ⟨rest, by rw [List.append_assoc]; rfl⟩

end Walk

/-! ## The order in full -/

namespace Graph

variable {ids : List TypeId} {e : TranslateError}

/-- The schema with some scalars behind its types. -/
def padded (g : Graph) (n : Nat) : Graph :=
  { g with types := g.types ++ Array.replicate n (.scalar (.custom "")) }

/-- Scalars stand where nothing has been, and all else is as before. -/
theorem get?_padded (n : Nat) (id : TypeId) : (g.padded n).get? id = g.get? id
    ∨ g.get? id = none ∧ (g.padded n).get? id = some (.scalar (.custom "")) := by
  rw [get?, get?, padded, Array.getElem?_append]
  split
  · exact Or.inl rfl
  · next beyond =>
      rw [Array.getElem?_replicate, Array.getElem?_eq_none (Nat.le_of_not_lt beyond)]
      split
      · exact Or.inr ⟨rfl, rfl⟩
      · exact Or.inl rfl

/-- A scalar has no fields, -/
theorem targetsAt_padded (n : Nat) : (g.padded n).targetsAt = g.targetsAt := by
  funext id
  rw [targetsAt, targetsAt]
  rcases get?_padded (g := g) n id with same | ⟨nothing, filler⟩
  · rw [same]
  · rw [nothing, filler]
    rfl

/-- and no block. -/
theorem emits_padded (n : Nat) : (g.padded n).emits = g.emits := by
  funext id
  rw [emits, emits]
  rcases get?_padded (g := g) n id with same | ⟨nothing, filler⟩
  · rw [same]
  · rw [nothing, filler]
    rfl

theorem Emission.of_padded {n : Nat} (h : (g.padded n).Emission ids) : g.Emission ids := by
  have known : ∀ looked, (g.padded n).known looked = g.known looked := by
    intro looked
    rw [known, known, targetsAt_padded]
    rfl
  refine ⟨?_, ?_⟩
  · rw [← known, ← emits_padded n]
    exact h.complete
  · intro i id there
    rw [← known]
    exact h.founded there

/-- With enough scalars nothing dangles. -/
theorem exists_closed_padded (g : Graph) : ∃ n, (g.padded n).Closed := by
  refine ⟨(g.types.toList.flatMap TypeNode.targets).sum + 1, ?_⟩
  intro owner target edge
  rw [← mem_targetsAt, targetsAt_padded, mem_targetsAt] at edge
  obtain ⟨o, there, refers⟩ := edge
  have among : target ∈ g.types.toList.flatMap TypeNode.targets :=
    List.mem_flatMap.2 ⟨.object o, mem_toList_iff.2 ⟨owner, there⟩, List.mem_map.2 refers⟩
  have below : target ≤ (g.types.toList.flatMap TypeNode.targets).sum :=
    List.single_le_sum (fun _ _ => Nat.zero_le _) target among
  rw [size, padded, Array.size_append, Array.size_replicate]
  exact Nat.lt_of_le_of_lt below (by omega)

/-- Any schema whose root is an object has a full order, whether or not its walk gets to the end. -/
theorem exists_emission {o : ObjectType} (root : g.rootObject = .ok o) :
    ∃ ids, g.Emission ids := by
  obtain ⟨there, named⟩ := rootObject_ok_iff.1 root
  obtain ⟨n, closed⟩ := exists_closed_padded g
  have root' : (g.padded n).get? (g.padded n).root = some (.object o) := by
    rcases get?_padded (g := g) n g.root with same | ⟨nothing, -⟩
    · exact same.trans there
    · rw [there] at nothing
      cases nothing
  obtain ⟨ids, -, emission⟩ := emissionList_of_closed closed root' named
  exact ⟨ids, emission.of_padded⟩

theorem Emission.fullOrder (h : g.Emission ids) (root : g.HasBlock g.root) : g.FullOrder ids where
  nodup := h.nodup
  mem_iff := h.mem_iff
  order := h.breadthFirst root

/-! ## The walk as a whole -/

/-- The walk of a schema with a sound root is its loop, from the first round to the last. -/
theorem walk_ends {o : ObjectType} (root : g.rootObject = .ok o) :
    ∃ taken events last, Walk.Passes g taken events last ∧
      (last.queue = [] ∧
          g.walk = ⟨events ++ [.walked o.name last.emitted.length], .ok last.emitted⟩ ∨
        ∃ e, (last.step g).result = .error e ∧
          g.walk = ⟨events ++ (last.step g).events, .error e⟩) := by
  obtain ⟨taken, events, last, passes, ends⟩ :=
    Walk.run_ends (Walk.start g.root) [] [] (.start root)
  have rooted : (Traced.ofExcept g.rootObject).result = .ok o := root
  refine ⟨taken, events, last, passes, ?_⟩
  rw [walk, Traced.bind_of_ok rooted]
  rcases ends with ⟨drained, done, told⟩ | ⟨e, failed, done, told⟩
  · refine Or.inl ⟨drained, ?_⟩
    rw [Traced.bind_of_ok done, ← told]
    rfl
  · refine Or.inr ⟨e, failed, ?_⟩
    rw [Traced.bind_of_error done, ← told]
    rfl

theorem emissionList_ends {o : ObjectType} (root : g.rootObject = .ok o) :
    ∃ taken events last, Walk.Passes g taken events last ∧
      (last.queue = [] ∧ g.emissionList = .ok last.emitted ∨
        ∃ e, (last.step g).result = .error e ∧ g.emissionList = .error e) := by
  obtain ⟨taken, events, last, passes, ends⟩ := walk_ends root
  refine ⟨taken, events, last, passes, ?_⟩
  rcases ends with ⟨drained, done⟩ | ⟨e, failed, done⟩
  · exact Or.inl ⟨drained, by rw [emissionList, done]⟩
  · exact Or.inr ⟨e, failed, by rw [emissionList, done]⟩

/-- A walk that fails names the first field that dangles. -/
theorem firstDangling_of_error {o : ObjectType} (root : g.rootObject = .ok o)
    (emission : g.Emission ids) (failed : g.emissionList = .error e) : g.FirstDangling ids e := by
  obtain ⟨taken, events, last, passes, ends⟩ := emissionList_ends root
  rcases ends with ⟨-, done⟩ | ⟨d, stuck, done⟩
  · rw [failed] at done
    cases done
  · rw [failed] at done
    cases done
    obtain ⟨id, rest, front⟩ : ∃ id rest, last.queue = id :: rest := by
      cases waiting : last.queue with
      | nil =>
          rw [Walk.step, waiting] at stuck
          cases stuck
      | cons id rest => exact ⟨id, rest, rfl⟩
    obtain ⟨k, dangling, first⟩ := (Walk.step_error_iff front).1 stuck
    -- the walk has gone through the ids in front of this one, so they stand in front of it in full
    obtain ⟨behind, full⟩ := passes.isPrefix emission
    rw [passes.scanned.waiting, front, List.append_assoc, List.cons_append] at full
    have here : ids[taken.length]? = some id := by
      rw [← full, List.getElem?_append_right (Nat.le_refl _), Nat.sub_self]
      rfl
    refine ⟨taken.length, k, id, here, dangling, ?_⟩
    intro j m other d at_j later
    rcases Nat.lt_trichotomy j taken.length with before | rfl | after
    · rw [← full, List.getElem?_append_left before] at at_j
      exact absurd later (passes.sound other (List.mem_of_getElem? at_j) m d)
    · rw [here] at at_j
      cases at_j
      exact Or.inr ⟨rfl, Nat.le_of_not_lt fun lt => first m lt d later⟩
    · exact Or.inl after

/-- A walk that ends well has met no field that dangles. -/
theorem inside_of_ok {o : ObjectType} {owner target : TypeId} (root : g.rootObject = .ok o)
    (done : g.emissionList = .ok ids) (reached : g.Reachable owner) (edge : g.Edge owner target) :
    target < g.size := by
  obtain ⟨taken, events, last, passes, ends⟩ := emissionList_ends root
  rcases ends with ⟨drained, -⟩ | ⟨e, -, failed⟩
  · have emission := emission_of_scanned passes.scanned drained
    have member := emission.mem_of_edge reached edge
    rw [passes.scanned.waiting, drained, List.append_nil] at member
    obtain ⟨o, there, field, inside, rfl⟩ := edge
    obtain ⟨k, place⟩ := List.mem_iff_getElem?.1 inside
    refine Nat.lt_of_not_le fun outside => ?_
    exact passes.sound owner member k _ (.field there place outside)
  · rw [done] at failed
    cases failed

/-- **THE WALK ON ANY SCHEMA**: whatever the types refer to and wherever the root points, the loop
    keeps its queue, its marks and the emitted ids in step and comes to an end.  The walk fails
    exactly when the root is no object with a name or a field within reach points outside the
    schema, and then the error is that of the root or names the first such field of all. -/
theorem emissionList_any (g : Graph) :
    (∀ taken events w, Walk.Passes g taken events w → w.Orderly g taken) ∧
    ((¬ ∃ fault, g.RootFault fault) → ∃ taken events last, Walk.Passes g taken events last ∧
      (last.queue = [] ∧ g.emissionList = .ok last.emitted ∨
        ∃ e, (last.step g).result = .error e ∧ g.emissionList = .error e)) ∧
    ((∃ fault, g.emissionList = .error (.invalidGraph fault)) ↔
      (∃ fault, g.RootFault fault) ∨
        ∃ owner target, g.Reachable owner ∧ g.Edge owner target ∧ g.size ≤ target) ∧
    ∀ e, g.emissionList = .error e →
      (∃ fault, g.RootFault fault ∧ e = .invalidGraph fault) ∨
        (¬ ∃ fault, g.RootFault fault) ∧ ∃ ids, g.FullOrder ids ∧ g.FirstDangling ids e := by
  refine ⟨fun taken events w passes => passes.orderly, ?_⟩
  cases root : g.rootObject with
  | error d =>
      obtain ⟨fault, wrong, rfl⟩ := rootObject_error_iff.1 root
      have rootless : (Traced.ofExcept g.rootObject).result = .error (.invalidGraph fault) := root
      have failed : g.emissionList = .error (.invalidGraph fault) := by
        rw [emissionList, walk, Traced.bind_of_error rootless]
      refine ⟨fun sound => absurd ⟨fault, wrong⟩ sound, ?_, ?_⟩
      · exact iff_of_true ⟨fault, failed⟩ (Or.inl ⟨fault, wrong⟩)
      · intro e failed'
        rw [failed] at failed'
        cases failed'
        exact Or.inl ⟨fault, wrong, rfl⟩
  | ok o =>
      have sound : ¬ ∃ fault, g.RootFault fault := by
        rintro ⟨fault, wrong⟩
        rw [rootObject_error_iff.2 ⟨fault, wrong, rfl⟩] at root
        cases root
      have block : g.HasBlock g.root := Or.inl ⟨o, (rootObject_ok_iff.1 root).1⟩
      obtain ⟨ids, emission⟩ := exists_emission root
      refine ⟨fun _ => emissionList_ends root, ?_, ?_⟩
      · rw [or_iff_right sound]
        constructor
        · rintro ⟨fault, failed⟩
          obtain ⟨i, k, id, there, dangling, -⟩ := firstDangling_of_error root emission failed
          cases dangling with
          | field found place outside =>
              have reached := emission.reachable i id there
              exact ⟨id, _, reached, ⟨_, found, _, List.mem_of_getElem? place, rfl⟩, outside⟩
        · rintro ⟨owner, target, reached, edge, outside⟩
          cases done : g.emissionList with
          | ok others =>
              exact absurd (inside_of_ok root done reached edge) (Nat.not_lt.2 outside)
          | error e =>
              obtain ⟨i, k, id, -, dangling, -⟩ := firstDangling_of_error root emission done
              cases dangling
              exact ⟨_, rfl⟩
      · intro e failed
        exact Or.inr ⟨sound, ids, emission.fullOrder block,
          firstDangling_of_error root emission failed⟩

/-- No builder leads to this schema: the index is empty and two fields dangle.  Of these the one
    of `Right` comes first, since `Deep` is further from the root. -/
def torn : Graph where
  types :=
    #[ .object ⟨"Query", [⟨"left", .named 1⟩, ⟨"right", .list (.named 2)⟩]⟩,
      .object ⟨"Left", [⟨"root", .named 0⟩, ⟨"deep", .named 3⟩]⟩,
      .object ⟨"Right", [⟨"self", .named 2⟩, ⟨"lost", .nonNull (.named 9)⟩]⟩,
      .object ⟨"Deep", [⟨"gone", .named 7⟩]⟩ ]
  names := []
  root := 0

theorem torn_walk :
    torn.emissionList = .error (.invalidGraph (.danglingField "Right" "lost" 9)) ∧
    ∃ ids, torn.FullOrder ids ∧
      torn.FirstDangling ids (.invalidGraph (.danglingField "Right" "lost" 9)) := by
  have failed : torn.emissionList = .error (.invalidGraph (.danglingField "Right" "lost" 9)) := by
    decide +kernel
  have rooted : ¬ ∃ fault, torn.RootFault fault := by
    rintro ⟨fault, wrong⟩
    have noRoot := rootObject_error_iff.2 ⟨fault, wrong, rfl⟩
    cases noRoot
  refine ⟨failed, ?_⟩
  rcases (emissionList_any torn).2.2.2 _ failed with ⟨fault, wrong, -⟩ | ⟨-, first⟩
  · exact absurd ⟨fault, wrong⟩ rooted
  · exact first

end Graph

end Protograph
