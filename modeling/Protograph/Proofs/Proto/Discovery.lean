import Protograph.Proto.Emission
import Protograph.Proofs.FirstOccurrence
import Protograph.Proofs.Schema.Reachability

/-! # Discovery — the walk finds what is reachable, once each

    Looking at the fields of some types shows a stream of ids, the root in
    front (`known`).  At every moment of the walk the emitted ids are the
    first occurrences in the stream shown so far, scalars and the like left
    out; the queue is the part of them not looked at (`Walk.Scanned`).

    When nothing waits, the emitted ids are those that looking at themselves
    shows (`Emission.complete`), and each is shown by ids in front of it
    (`Emission.founded`).  The first gives that everything reachable is
    there, the second that nothing else is. -/

namespace Protograph

variable {g : Graph}

namespace Graph

/-- What looking at some types shows, in the order of looking. -/
def known (g : Graph) (looked : List TypeId) : List TypeId := g.root :: looked.flatMap g.targetsAt

/-- The walk's own test for types that have blocks. -/
def emits (g : Graph) (id : TypeId) : Bool := ((g.get? id).map TypeNode.isEmittable).getD false

theorem emits_of_get {id : TypeId} {node : TypeNode} (there : g.get? id = some node) :
    g.emits id = node.isEmittable := by
  rw [emits, there]
  rfl

theorem emits_iff {id : TypeId} : g.emits id = true ↔ g.HasBlock id := by
  constructor
  · intro emitted
    rw [emits] at emitted
    cases there : g.get? id with
    | none => rw [there] at emitted; cases emitted
    | some node =>
        rw [there] at emitted
        cases node with
        | object o => exact Or.inl ⟨o, there⟩
        | enum e => exact Or.inr ⟨e, there⟩
        | _ => cases emitted
  · rintro (⟨o, there⟩ | ⟨e, there⟩)
    · rw [emits_of_get there]; rfl
    · rw [emits_of_get there]; rfl

theorem known_concat (looked : List TypeId) (id : TypeId) :
    g.known (looked ++ [id]) = g.known looked ++ g.targetsAt id := by
  simp [known]

theorem mem_known {looked : List TypeId} {id : TypeId} :
    id ∈ g.known looked ↔ id = g.root ∨ ∃ owner ∈ looked, g.Edge owner id := by
  simp [known, mem_targetsAt]

theorem known_mono {looked more : List TypeId} (h : looked ⊆ more) : g.known looked ⊆ g.known more := by
  intro id shown
  rw [mem_known] at shown ⊢
  rcases shown with root | ⟨owner, inside, edge⟩
  · exact Or.inl root
  · exact Or.inr ⟨owner, h inside, edge⟩

end Graph

namespace Walk

variable {w w' : Walk} {owner : ObjectType} {field : Field TypeId} {looked stream : List TypeId}

/-- The walk after looking at all of `looked`, the stream of ids met there
    being `stream`. -/
structure Scanned (g : Graph) (looked stream : List TypeId) (w : Walk) : Prop where
  emitted : w.emitted = stream.eraseDups.filter g.emits
  visited : w.visited = w.emitted.reverse
  waiting : w.emitted = looked ++ w.queue
  founded : ∀ {i : Nat} {id : TypeId}, w.emitted[i]? = some id → id ∈ g.known (w.emitted.take i)

theorem scanned_start (emits : g.emits g.root = true) : Scanned g [] [g.root] (start g.root) where
  emitted := by simp [start, List.eraseDups_cons, emits]
  visited := rfl
  waiting := rfl
  founded := by
    intro i id there
    cases i with
    | zero => cases there; exact Graph.mem_known.2 (Or.inl rfl)
    | succ i => cases there

/-- An id that is emitted already, or is not to be, changes nothing. -/
theorem Scanned.skip {id : TypeId} (h : Scanned g looked stream w)
    (old : g.emits id = true → id ∈ w.emitted) : Scanned g looked (stream ++ [id]) w where
  emitted := by
    rw [h.emitted, eraseDups_concat]
    by_cases met : id ∈ stream
    · rw [if_pos met]
    · rw [if_neg met, List.filter_append, List.filter_singleton]
      cases emits : g.emits id with
      | false => simp
      | true =>
          have inside := old emits
          rw [h.emitted, List.mem_filter, List.mem_eraseDups] at inside
          exact absurd inside.1 met
  visited := h.visited
  waiting := h.waiting
  founded := h.founded

/-- An id that is met for the first time. -/
theorem Scanned.meet {id : TypeId} (h : Scanned g looked stream w)
    (emits : g.emits id = true) (new : id ∉ w.emitted) (shown : id ∈ g.known looked) :
    Scanned g looked (stream ++ [id]) (w.meet id) where
  emitted := by
    have unmet : id ∉ stream := by
      intro met
      refine new ?_
      rw [h.emitted, List.mem_filter, List.mem_eraseDups]
      exact ⟨met, emits⟩
    rw [eraseDups_concat_of_not_mem unmet, List.filter_append, ← h.emitted]
    simp [Walk.meet, emits]
  visited := by simp [Walk.meet, h.visited]
  waiting := by simp [Walk.meet, h.waiting]
  founded := by
    intro i other there
    simp only [Walk.meet] at there ⊢
    -- earlier ids keep what was in front of them; the new one has all that was looked at
    rcases Nat.lt_or_ge i w.emitted.length with below | above
    · rw [List.getElem?_append_left below] at there
      rw [List.take_append_of_le_length (Nat.le_of_lt below)]
      exact h.founded there
    · rw [List.getElem?_append_right above, List.getElem?_singleton] at there
      split at there
      · next last =>
          cases there
          have here : i = w.emitted.length := by omega
          rw [here, List.take_left]
          refine Graph.known_mono ?_ shown
          rw [h.waiting]
          exact List.subset_append_left _ _
      · cases there

/-- Looking at one field either leaves the walk as it is, since the target is met already or has
    no block, or meets the target and reports it. -/
theorem follow_cases (run : (follow g owner field w).result = .ok w') :
    (g.emits field.type.target = true → field.type.target ∈ w.visited) ∧ w' = w
        ∧ (follow g owner field w).events = []
      ∨ ∃ node, g.get? field.type.target = some node ∧ node.isEmittable = true
        ∧ field.type.target ∉ w.visited ∧ w' = w.meet field.type.target
        ∧ (follow g owner field w).events
            = [.discovered node.variant node.name owner.name field.name] := by
  cases there : g.get? field.type.target with
  | none =>
      rw [follow, there] at run
      cases run
  | some node =>
      rw [follow, there] at run ⊢
      dsimp only at run ⊢
      split at run
      · next fresh =>
          cases run
          rw [if_pos fresh]
          rw [Bool.and_eq_true, Bool.not_eq_true', ← Bool.not_eq_true,
            List.contains_iff_mem] at fresh
          exact Or.inr ⟨node, rfl, fresh.1, fresh.2, rfl, rfl⟩
      · next stale =>
          cases run
          rw [if_neg stale]
          refine Or.inl ⟨fun emitted => ?_, rfl, rfl⟩
          rw [← Graph.emits_of_get there, emitted, Bool.true_and, Bool.not_eq_true',
            Bool.not_eq_false, List.contains_iff_mem] at stale
          exact stale

/-- Looking at one field adds its target to the stream. -/
theorem scanned_follow (h : Scanned g looked stream w)
    (shown : field.type.target ∈ g.known looked)
    (run : (follow g owner field w).result = .ok w') :
    Scanned g looked (stream ++ [field.type.target]) w' := by
  have visited : field.type.target ∈ w.visited ↔ field.type.target ∈ w.emitted := by
    rw [h.visited, List.mem_reverse]
  rcases follow_cases run with ⟨old, rfl, -⟩ | ⟨node, there, emits, new, rfl, -⟩
  · exact h.skip fun emitted => visited.1 (old emitted)
  · exact h.meet ((Graph.emits_of_get there).trans emits) (mt visited.2 new) shown

/-- Looking at the fields of a type adds their targets to the stream. -/
theorem scanned_expand {fields : List (Field TypeId)} (h : Scanned g looked stream w)
    (shown : ∀ field ∈ fields, field.type.target ∈ g.known looked)
    (run : (expand g owner fields w).result = .ok w') :
    Scanned g looked (stream ++ fields.map (·.type.target)) w' := by
  induction fields generalizing w stream with
  | nil =>
      cases run
      rw [List.map_nil, List.append_nil]
      exact h
  | cons field fields ih =>
      rw [expand, Traced.result_bind] at run
      cases first : (follow g owner field w).result with
      | error e => rw [first] at run; cases run
      | ok next =>
          rw [first] at run
          have one := scanned_follow h (shown field List.mem_cons_self) first
          have all := ih one (fun f inside => shown f (List.mem_cons_of_mem _ inside)) run
          rw [List.append_assoc] at all
          exact all

/-- The id at the front of the queue moves to the types looked at. -/
theorem Scanned.take {id : TypeId} {rest : List TypeId} (h : Scanned g looked stream w)
    (front : w.queue = id :: rest) :
    Scanned g (looked ++ [id]) stream { w with queue := rest } := by
  refine ⟨h.emitted, h.visited, ?_, h.founded⟩
  rw [h.waiting, front, List.append_assoc]
  rfl

/-- A step looks at one more type, the one at the front of the queue. -/
theorem scanned_step {id : TypeId} {rest : List TypeId} (h : Scanned g looked (g.known looked) w)
    (front : w.queue = id :: rest) (run : (w.step g).result = .ok w') :
    Scanned g (looked ++ [id]) (g.known (looked ++ [id])) w' := by
  have moved := h.take front
  rw [step, front] at run
  dsimp only at run
  rw [Graph.known_concat]
  split at run
  · next owner there =>
      have found := Graph.object?_eq_some_iff.1 there
      rw [Graph.targetsAt_of_object found]
      refine scanned_expand moved ?_ run
      intro field inside
      have edge : g.Edge id field.type.target := ⟨owner, found, field, inside, rfl⟩
      exact Graph.mem_known.2 (Or.inr ⟨id, List.mem_concat_self, edge⟩)
  · next there =>
      -- only objects have fields, so there is nothing to look at
      cases run
      have none : g.targetsAt id = [] := by
        refine List.eq_nil_iff_forall_not_mem.2 fun target refers => ?_
        obtain ⟨o, found, -⟩ := Graph.mem_targetsAt.1 refers
        rw [Graph.object?_eq_some_iff.2 found] at there
        cases there
      rw [none, List.append_nil]
      exact moved

/-- The walk between two steps. -/
def Settled (g : Graph) (w : Walk) : Prop := ∃ looked, Scanned g looked (g.known looked) w

/-- A step looks at one more type and settles again. -/
theorem settled_step (h : Settled g w) (waiting : w.queue ≠ [])
    (run : (w.step g).result = .ok w') : Settled g w' := by
  obtain ⟨looked, h⟩ := h
  obtain ⟨id, rest, front⟩ := List.exists_cons_of_ne_nil waiting
  exact ⟨looked ++ [id], scanned_step h front run⟩

/-! ## Nothing dangles, so nothing fails -/

theorem follow_ok (w : Walk) (inside : field.type.target < g.size) :
    ∃ next, (follow g owner field w).result = .ok next := by
  obtain ⟨node, there⟩ := Graph.exists_get? inside
  rw [follow]
  rw [there]
  dsimp only
  split
  · exact ⟨_, rfl⟩
  · exact ⟨w, rfl⟩

theorem expand_ok {fields : List (Field TypeId)} (w : Walk)
    (inside : ∀ field ∈ fields, field.type.target < g.size) :
    ∃ next, (expand g owner fields w).result = .ok next := by
  induction fields generalizing w with
  | nil => exact ⟨w, rfl⟩
  | cons field fields ih =>
      obtain ⟨first, done⟩ : ∃ first, (follow g owner field w).result = .ok first :=
        follow_ok w (inside field List.mem_cons_self)
      obtain ⟨last, rest⟩ := ih first fun f later => inside f (List.mem_cons_of_mem _ later)
      refine ⟨last, ?_⟩
      rw [expand, Traced.result_bind, done]
      exact rest

theorem step_ok (closed : g.Closed) (w : Walk) : ∃ next, (w.step g).result = .ok next := by
  rw [step]
  split
  · exact ⟨w, rfl⟩
  · next id rest taken =>
      split
      · next owner there =>
          have found := Graph.object?_eq_some_iff.1 there
          exact expand_ok _ fun field inside => closed ⟨owner, found, field, inside, rfl⟩
      · exact ⟨_, rfl⟩

/-- On a closed schema the walk comes to its end and is settled there. -/
theorem run_settled (closed : g.Closed) (w : Walk) (h : Settled g w) :
    ∃ last, (run g w).result = .ok last ∧ Settled g last ∧ last.queue = [] := by
  by_cases drained : w.queue = []
  · rw [run_of_nil drained]
    exact ⟨w, rfl, h, drained⟩
  · obtain ⟨next, taken⟩ := step_ok closed w
    have fewer := pending_step drained taken
    obtain ⟨last, done, settled, empty⟩ := run_settled closed next (settled_step h drained taken)
    refine ⟨last, ?_, settled, empty⟩
    rw [run_of_ne_nil drained, Traced.result_bind, taken]
    exact done
termination_by w.pending g

end Walk

namespace Graph

variable {ids : List TypeId}

/-- What the walk leaves behind. -/
structure Emission (g : Graph) (ids : List TypeId) : Prop where
  complete : ids = (g.known ids).eraseDups.filter g.emits
  founded : ∀ {i : Nat} {id : TypeId}, ids[i]? = some id → id ∈ g.known (ids.take i)

/-- A walk at which nothing waits leaves an emission behind. -/
theorem emission_of_scanned {w : Walk} {looked : List TypeId}
    (settled : Walk.Scanned g looked (g.known looked) w) (drained : w.queue = []) :
    g.Emission w.emitted := by
  -- nothing waits, so all that is emitted has been looked at
  have all : w.emitted = looked := by rw [settled.waiting, drained, List.append_nil]
  refine ⟨?_, settled.founded⟩
  rw [all, ← settled.emitted, all]

theorem rootObject_ok_iff {o : ObjectType} :
    g.rootObject = .ok o ↔ g.get? g.root = some (.object o) ∧ o.name ≠ "" := by
  constructor
  · intro h
    rw [rootObject] at h
    split at h
    · cases h
    · next there =>
        split at h
        · cases h
        · next named =>
            cases h
            exact ⟨there, named⟩
    · cases h
  · rintro ⟨there, named⟩
    rw [rootObject, there]
    exact if_neg named

/-- A closed schema with a named root has an emission list. -/
theorem emissionList_of_closed {o : ObjectType} (closed : g.Closed)
    (root : g.get? g.root = some (.object o)) (named : o.name ≠ "") :
    ∃ ids, g.emissionList = .ok ids ∧ g.Emission ids := by
  have emits : g.emits g.root = true := emits_iff.2 (Or.inl ⟨o, root⟩)
  obtain ⟨last, done, ⟨looked, settled⟩, empty⟩ :=
    Walk.run_settled closed (Walk.start g.root) ⟨[], Walk.scanned_start emits⟩
  refine ⟨last.emitted, ?_, emission_of_scanned settled empty⟩
  have rooted : g.rootObject = .ok o := rootObject_ok_iff.2 ⟨root, named⟩
  simp only [emissionList, walk, Traced.result_bind, Traced.ofExcept, rooted, Except.bind, done]
  rfl

namespace Emission

/-- Whatever is met before its place is met from the root. -/
theorem reachable (h : g.Emission ids) (i : Nat) (id : TypeId) (there : ids[i]? = some id) :
    g.Reachable id := by
  rcases mem_known.1 (h.founded there) with root | ⟨owner, before, edge⟩
  · rw [root]
    exact ⟨0, .root⟩
  · obtain ⟨j, earlier, at_j⟩ := mem_take_iff.1 before
    obtain ⟨n, path⟩ := reachable h j owner at_j
    exact ⟨n + 1, .step path edge⟩
termination_by i

theorem mem_of_known {id : TypeId} (h : g.Emission ids) (shown : id ∈ g.known ids)
    (block : g.HasBlock id) : id ∈ ids := by
  rw [h.complete, List.mem_filter, List.mem_eraseDups]
  exact ⟨shown, emits_iff.2 block⟩

/-- Every path runs through emitted objects, so its end is shown by them. -/
theorem known_of_path {n : Nat} {id : TypeId} (h : g.Emission ids) (path : g.Path n id) :
    id ∈ g.known ids := by
  induction path with
  | root => exact mem_known.2 (Or.inl rfl)
  | step path edge ih =>
      have isObject := edge
      obtain ⟨o, there, -⟩ := isObject
      exact mem_known.2 (Or.inr ⟨_, h.mem_of_known ih (Or.inl ⟨o, there⟩), edge⟩)

theorem mem_iff (h : g.Emission ids) (id : TypeId) : id ∈ ids ↔ g.Reachable id ∧ g.HasBlock id := by
  constructor
  · intro inside
    obtain ⟨i, there⟩ := List.mem_iff_getElem?.1 inside
    refine ⟨h.reachable i id there, ?_⟩
    rw [h.complete, List.mem_filter] at inside
    exact emits_iff.1 inside.2
  · rintro ⟨⟨n, path⟩, block⟩
    exact h.mem_of_known (h.known_of_path path) block

theorem nodup (h : g.Emission ids) : ids.Nodup := by
  rw [h.complete]
  exact (nodup_eraseDups _).filter _

theorem head (h : g.Emission ids) (root : g.HasBlock g.root) : ids.head? = some g.root := by
  rw [h.complete, known, List.eraseDups_cons, List.filter_cons_of_pos (emits_iff.2 root)]
  rfl

end Emission

theorem Built.emission (built : g.Built) (named : g.rootName ≠ "") :
    ∃ ids, g.emissionList = .ok ids ∧ g.Emission ids := by
  obtain ⟨o, root⟩ := built.root_object
  refine emissionList_of_closed built.closed root ?_
  rw [rootName_of_get root] at named
  exact named

/-- **THE EMISSION LIST**: on every finished schema with a named root the walk
    succeeds, starts with the root, repeats nothing, and finds exactly the
    objects and enums that the root reaches through fields of objects. -/
theorem emissionList_exact (built : g.Built) (named : g.rootName ≠ "") :
    ∃ ids, g.emissionList = .ok ids ∧ ids.head? = some g.root ∧ ids.Nodup ∧
      ∀ id, id ∈ ids ↔ g.Reachable id ∧ g.HasBlock id := by
  obtain ⟨ids, done, h⟩ := built.emission named
  have root : g.HasBlock g.root := Or.inl built.root_object
  exact ⟨ids, done, h.head root, h.nodup, h.mem_iff⟩

end Graph

/-- Calls for a schema with a cycle through the root, an enum that two types
    share, an object out of reach, and an interface within reach; the last
    call is refused. -/
def bookshopCalls : List Call :=
  [ .object "Query", .object "Book", .object "Author",
    .enumeration "Genre" ["NOVEL", "ESSAY"], .object "Attic", .interface "Place",
    .scalar .string,
    .field 0 "book" (.nonNull (.named 1)), .field 0 "genre" (.named 3),
    .field 1 "author" (.named 2), .field 1 "copies" (.list (.nonNull (.named 1))),
    .field 2 "genre" (.named 3), .field 2 "home" (.named 5), .field 2 "start" (.named 0),
    .field 4 "dust" (.named 6), .field 9 "lost" (.named 0) ]

/-- The schema of `bookshopCalls`, with `Query` as its root. -/
def bookshop : Graph :=
  ⟨(Builder.run {} bookshopCalls).types, (Builder.run {} bookshopCalls).names, 0⟩

theorem bookshop_built : bookshop.Built := ⟨bookshopCalls, 0, rfl⟩

theorem bookshop_emission :
    bookshop.Built ∧ bookshop.rootName ≠ "" ∧ bookshop.emissionList = .ok [0, 1, 3, 2] ∧
    ∃ ids, bookshop.emissionList = .ok ids ∧ ids.head? = some bookshop.root ∧ ids.Nodup ∧
      ∀ id, id ∈ ids ↔ bookshop.Reachable id ∧ bookshop.HasBlock id :=
  ⟨bookshop_built, by decide, by decide +kernel,
    Graph.emissionList_exact bookshop_built (by decide)⟩

end Protograph
