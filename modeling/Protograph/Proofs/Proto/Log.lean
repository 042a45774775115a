import Protograph.Proofs.Proto.Worklist
import Protograph.Proofs.Proto.Blocks

/-! # The log — what a translation reports, event by event

    The walk reports a type when it meets it, with the field in hand.  The
    type has not been shown by any field looked at before, so this field is
    the first that refers to it (`Graph.FirstReferrer`), and it remains so:
    ids that leave the queue later stand behind its owner.  One field keeps
    this (`Walk.told_follow`), so every round does (`Walk.Passes.told`).

    Blocks are reported as they are made.  The first that can not be made ends
    the log, since nothing is looked at behind it (`Graph.blocks_log`). -/

namespace Protograph

variable {g : Graph} {ids : List TypeId} {id : TypeId}

namespace Graph

/-- The first field that refers to an id: of the first of the ids with such a
    field at all, the first such field. -/
def FirstReferrer (g : Graph) (ids : List TypeId) (id : TypeId) (o : ObjectType)
    (field : Field TypeId) : Prop :=
  ∃ i k, First (fun i o => ∃ owner, ids[i]? = some owner ∧ g.get? owner = some (.object o)
        ∧ ∃ f ∈ o.fields, f.type.target = id) i o
    ∧ First (fun k f => o.fields[k]? = some f ∧ f.type.target = id) k field

/-- The event that reports the type at an id, with the first field of the ids that refers to it. -/
inductive Discovery (g : Graph) (ids : List TypeId) (id : TypeId) : Event → Prop where
  | of {node : TypeNode} {o : ObjectType} {field : Field TypeId} (there : g.get? id = some node)
      (first : g.FirstReferrer ids id o field) :
      Discovery g ids id (.discovered node.variant node.name o.name field.name)

/-- The event that reports the block of the type at an id. -/
inductive Ready (g : Graph) (id : TypeId) : Event → Prop where
  | message {o : ObjectType} (there : g.get? id = some (.object o)) :
      Ready g id (.messageReady o.name o.fields.length)
  | enumWrapper {e : EnumType} (there : g.get? id = some (.enum e)) :
      Ready g id (.enumReady e.name e.values.length)

/-- The events of a translation with the emission list `ids`, by its result. -/
inductive Log (g : Graph) (ids : List TypeId) :
    Except TranslateError String → List Event → Prop where
  /-- Every type behind the root is discovered, every block made, and the document counted. -/
  | written {text : String} {found made : List Event}
      (discovered : List.Forall₂ (g.Discovery ids) ids.tail found)
      (ready : List.Forall₂ g.Ready ids made) :
      Log g ids (.ok text) (found ++ [.walked g.rootName ids.length] ++ made
        ++ [.translated g.rootName ids.length text.utf8ByteSize])
  /-- Every type behind the root is discovered, and the blocks are made in front of the first
      that fails. -/
  | stopped {front back : List TypeId} {id : TypeId} {e : TranslateError} {found made : List Event}
      (discovered : List.Forall₂ (g.Discovery ids) ids.tail found)
      (split : ids = front ++ id :: back) (failed : g.block id = .error e)
      (clear : ∀ x ∈ front, ∃ block, g.block x = .ok block)
      (ready : List.Forall₂ g.Ready front made) :
      Log g ids (.error e) (found ++ [.walked g.rootName ids.length] ++ made)

/-! ## Discoveries -/

/-- Further ids do not take the place of the first. -/
theorem FirstReferrer.append {o : ObjectType} {field : Field TypeId}
    (h : g.FirstReferrer ids id o field) (more : List TypeId) :
    g.FirstReferrer (ids ++ more) id o field := by
  obtain ⟨i, k, ⟨⟨owner, row, found⟩, before⟩, place⟩ := h
  have below := (List.getElem?_eq_some_iff.1 row).1
  have same : ∀ j ≤ i, (ids ++ more)[j]? = ids[j]? := fun j le =>
    List.getElem?_append_left (Nat.lt_of_le_of_lt le below)
  refine ⟨i, k, ⟨⟨owner, (same i (Nat.le_refl i)).trans row, found⟩, ?_⟩, place⟩
  rintro j lt other ⟨owner', row', found'⟩
  rw [same j (Nat.le_of_lt lt)] at row'
  exact before j lt other ⟨owner', row', found'⟩

theorem Discovery.append {e : Event} (h : g.Discovery ids id e) (more : List TypeId) :
    g.Discovery (ids ++ more) id e := by
  cases h with
  | of there first => exact .of there (first.append more)

end Graph

namespace Walk

variable {w w' : Walk} {owner : ObjectType} {field : Field TypeId} {front taken : List TypeId}
  {passed fields : List (Field TypeId)} {events : List Event}

/-- The events so far report the ids emitted behind the root, one for one. -/
def Told (g : Graph) (looked : List TypeId) (w : Walk) (events : List Event) : Prop :=
  ∃ met, w.emitted = g.root :: met ∧ List.Forall₂ (g.Discovery looked) met events

/-- What no field has shown so far, the next that refers to it is the first to show. -/
theorem firstReferrer_of_unshown (there : g.get? id = some (.object owner))
    (all : owner.fields = passed ++ field :: fields)
    (unshown : field.type.target ∉ g.known front ++ passed.map (·.type.target)) :
    g.FirstReferrer (front ++ [id]) field.type.target owner field := by
  rw [List.mem_append, not_or] at unshown
  obtain ⟨elsewhere, earlier⟩ := unshown
  have member : field ∈ owner.fields := by
    rw [all]
    exact List.mem_append_right _ List.mem_cons_self
  refine ⟨front.length, passed.length, ⟨⟨id, ?_, there, field, member, rfl⟩, ?_⟩, ⟨⟨?_, rfl⟩, ?_⟩⟩
  · rw [List.getElem?_append_right (Nat.le_refl _), Nat.sub_self]
    rfl
  · rintro j lt o ⟨other, row, found, f, inside, refers⟩
    rw [List.getElem?_append_left lt] at row
    refine elsewhere (Graph.mem_known.2 (Or.inr ⟨other, List.mem_of_getElem? row, ?_⟩))
    exact ⟨o, found, f, inside, refers⟩
  · rw [all, List.getElem?_append_right (Nat.le_refl _), Nat.sub_self]
    rfl
  · rintro m lt f ⟨place, refers⟩
    rw [all, List.getElem?_append_left lt] at place
    exact earlier (List.mem_map.2 ⟨f, List.mem_of_getElem? place, refers⟩)

/-- A field reports what it meets, and it is the first field to refer to that. -/
theorem told_follow
    (scanned : Scanned g (front ++ [id]) (g.known front ++ passed.map (·.type.target)) w)
    (there : g.get? id = some (.object owner)) (all : owner.fields = passed ++ field :: fields)
    (told : Told g (front ++ [id]) w events) (run : (follow g owner field w).result = .ok w') :
    Told g (front ++ [id]) w' (events ++ (follow g owner field w).events) := by
  obtain ⟨met, emitted, each⟩ := told
  rcases follow_cases run with ⟨-, rfl, silent⟩ | ⟨node, found, emits, new, rfl, report⟩
  · rw [silent, List.append_nil]
    exact ⟨met, emitted, each⟩
  · -- an id with a block that a field had shown would have been emitted then
    have unshown : field.type.target ∉ g.known front ++ passed.map (·.type.target) := by
      intro shown
      rw [scanned.visited, List.mem_reverse, scanned.emitted, List.mem_filter,
        List.mem_eraseDups] at new
      exact new ⟨shown, (Graph.emits_of_get found).trans emits⟩
    have first := firstReferrer_of_unshown there all unshown
    rw [report]
    refine ⟨met ++ [field.type.target], ?_, ?_⟩
    · rw [meet, emitted]
      rfl
    · exact List.rel_append each (.cons (.of found first) .nil)

/-- The fields of an object report in the order of their declaration. -/
theorem told_expand
    (scanned : Scanned g (front ++ [id]) (g.known front ++ passed.map (·.type.target)) w)
    (there : g.get? id = some (.object owner)) (all : owner.fields = passed ++ fields)
    (told : Told g (front ++ [id]) w events) (run : (expand g owner fields w).result = .ok w') :
    Told g (front ++ [id]) w' (events ++ (expand g owner fields w).events) := by
  induction fields generalizing passed w events with
  | nil =>
      cases run
      rw [expand, Traced.events_pure, List.append_nil]
      exact told
  | cons field fields ih =>
      rw [expand, Traced.result_bind] at run
      cases first : (follow g owner field w).result with
      | error e => rw [first] at run; cases run
      | ok next =>
          rw [first] at run
          have member : field ∈ owner.fields := by
            rw [all]
            exact List.mem_append_right _ List.mem_cons_self
          have shown : field.type.target ∈ g.known (front ++ [id]) :=
            Graph.mem_known.2 (Or.inr ⟨id, List.mem_concat_self, owner, there, field, member, rfl⟩)
          have one := told_follow scanned there all told first
          have scanned' : Scanned g (front ++ [id])
              (g.known front ++ (passed ++ [field]).map (·.type.target)) next := by
            rw [List.map_append, ← List.append_assoc]
            exact scanned_follow scanned shown first
          have all' : owner.fields = (passed ++ [field]) ++ fields := by
            rw [all, List.append_assoc]
            rfl
          rw [expand, Traced.bind_of_ok first, ← List.append_assoc]
          exact ih scanned' all' one run

/-- Round by round the walk reports what it emits. -/
theorem Passes.told (h : Passes g taken events w) : Told g taken w events := by
  induction h with
  | start root => exact ⟨[], rfl, .nil⟩
  | @step taken rest events w w' id before queue done ih =>
      obtain ⟨met, emitted, each⟩ := ih
      have told : Told g (taken ++ [id]) { w with queue := rest } events :=
        ⟨met, emitted, each.imp fun _ _ discovery => discovery.append [id]⟩
      rw [Walk.step, queue] at done ⊢
      dsimp only at done ⊢
      cases there : g.object? id with
      | none =>
          rw [there] at done
          cases done
          rw [Traced.events_pure, List.append_nil]
          exact told
      | some owner =>
          rw [there] at done
          -- none of the fields of the type in hand has been looked at yet
          have moved : Scanned g (taken ++ [id])
              (g.known taken ++ ([] : List (Field TypeId)).map (·.type.target))
              { w with queue := rest } := by
            rw [List.map_nil, List.append_nil]
            exact before.scanned.take queue
          exact told_expand moved (Graph.object?_eq_some_iff.1 there) rfl told done

end Walk

namespace Graph

/-! ## Blocks -/

variable {e : TranslateError}

theorem ready_of_block {block : Block} (made : g.block id = .ok block) :
    g.Ready id block.event := by
  cases blockOf_of_block made with
  | message there fields =>
      rw [Block.event, ← fields.length_eq]
      exact .message there
  | enumWrapper there => exact .enumWrapper there

theorem blocks_cons_of_error (failed : g.block id = .error e) (ids : List TypeId) :
    g.blocks (id :: ids) = ⟨[], .error e⟩ := by
  have first : (Traced.ofExcept (g.block id)).result = .error e := failed
  rw [blocks, Traced.bind_of_error first]
  rfl

theorem blocks_cons_of_ok {block : Block} (made : g.block id = .ok block) (ids : List TypeId) :
    g.blocks (id :: ids)
      = ⟨block.event :: (g.blocks ids).events, (g.blocks ids).result.map (block :: ·)⟩ := by
  have first : (Traced.ofExcept (g.block id)).result = .ok block := made
  have second : (Traced.report block.event : Traced TranslateError Unit).result = .ok () := rfl
  rw [blocks, Traced.bind_of_ok first, Traced.bind_of_ok second]
  cases rest : (g.blocks ids).result with
  | error d =>
      rw [Traced.bind_of_error rest]
      rfl
  | ok others =>
      rw [Traced.bind_of_ok rest, Traced.events_pure, List.append_nil]
      rfl

/-- Blocks report in order, up to the first that fails. -/
theorem blocks_log (ids : List TypeId) :
    (∃ blocks, (g.blocks ids).result = .ok blocks
        ∧ List.Forall₂ g.Ready ids (g.blocks ids).events)
      ∨ ∃ front id back e, ids = front ++ id :: back ∧ (g.blocks ids).result = .error e
        ∧ g.block id = .error e ∧ (∀ x ∈ front, ∃ block, g.block x = .ok block)
        ∧ List.Forall₂ g.Ready front (g.blocks ids).events := by
  induction ids with
  | nil => exact Or.inl ⟨[], rfl, .nil⟩
  | cons id ids ih =>
      cases made : g.block id with
      | error e =>
          rw [blocks_cons_of_error made]
          exact Or.inr ⟨[], id, ids, e, rfl, rfl, made, fun _ inside => (nomatch inside), .nil⟩
      | ok block =>
          have ready := ready_of_block made
          rw [blocks_cons_of_ok made]
          rcases ih with
            ⟨blocks, done, others⟩ | ⟨front, x, back, e, rfl, failed, stuck, clear, others⟩
          · rw [done]
            exact Or.inl ⟨block :: blocks, rfl, .cons ready others⟩
          · rw [failed]
            refine Or.inr ⟨id :: front, x, back, e, rfl, rfl, stuck, ?_, .cons ready others⟩
            intro y inside
            rcases List.mem_cons.1 inside with rfl | later
            · exact ⟨block, made⟩
            · exact clear y later

/-! ## Translations -/

/-- The walk of a finished schema reports one discovery for each type behind the root, and at the
    end how many types there are. -/
theorem walk_log (built : g.Built) (named : g.rootName ≠ "") :
    ∃ met found,
      g.walk = ⟨found ++ [.walked g.rootName (g.root :: met).length], .ok (g.root :: met)⟩
      ∧ List.Forall₂ (g.Discovery (g.root :: met)) met found := by
  obtain ⟨o, there⟩ := built.root_object
  have root : g.rootObject = .ok o := by
    rw [rootName_of_get there] at named
    exact rootObject_ok_iff.2 ⟨there, named⟩
  obtain ⟨taken, events, last, passes, ends⟩ := walk_ends root
  rcases ends with ⟨drained, done⟩ | ⟨e, failed, -⟩
  · obtain ⟨met, emitted, each⟩ := passes.told
    have all : taken = last.emitted := by
      rw [passes.scanned.waiting, drained, List.append_nil]
    rw [all, emitted] at each
    refine ⟨met, events, ?_, each⟩
    rw [done, emitted, rootName_of_get there]
    rfl
  · -- on a closed schema no round fails
    obtain ⟨next, done⟩ := Walk.step_ok built.closed last
    rw [done] at failed
    cases failed

/-- **THE LOG OF A TRANSLATION**: of a finished schema with a named root the events are, in order,
    one discovery for each type of the emission list behind the root, with the first field that
    refers to it; the size of the list; one event for each block in front of the first that fails;
    and, if none fails, the size of the list and of the text. -/
theorem translate_log (built : g.Built) (named : g.rootName ≠ "") (o : Options) :
    ∃ met, g.emissionList = .ok (g.root :: met)
      ∧ g.Log (g.root :: met) (g.translate o).result (g.translate o).events := by
  obtain ⟨met, found, walked, discovered⟩ := walk_log built named
  have ids : g.walk.result = .ok (g.root :: met) := by rw [walked]
  refine ⟨met, ids, ?_⟩
  rw [translate, Traced.bind_of_ok ids, walked]
  rcases blocks_log (g := g) (g.root :: met) with
    ⟨blocks, done, ready⟩ | ⟨front, id, back, e, split, done, failed, clear, ready⟩
  · rw [Traced.bind_of_ok done, ← List.append_assoc]
    exact .written discovered ready
  · rw [Traced.bind_of_error done]
    exact .stopped discovered split failed clear ready

/-- The home of an author is an interface, so the blocks end before `Author`, which has been
    discovered all the same. -/
theorem bookshop_log : bookshop.Built ∧ bookshop.rootName ≠ "" ∧
    (bookshop.translate {}).events
      = [ .discovered "object" "Book" "Query" "book", .discovered "enum" "Genre" "Query" "genre",
          .discovered "object" "Author" "Book" "author", .walked "Query" 4,
          .messageReady "Query" 2, .messageReady "Book" 2, .enumReady "Genre" 2 ] ∧
    ∃ met, bookshop.emissionList = .ok (bookshop.root :: met) ∧
      bookshop.Log (bookshop.root :: met) (bookshop.translate {}).result
        (bookshop.translate {}).events :=
  ⟨bookshop_built, by decide, by decide +kernel, translate_log bookshop_built (by decide) {}⟩

end Graph

end Protograph
