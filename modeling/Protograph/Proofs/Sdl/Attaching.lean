import Protograph.Sdl.Load
import Protograph.Proofs.FirstOccurrence
import Protograph.Proofs.Reports
import Protograph.Proofs.Sdl.Definitions

/-! # Attaching — what a builder has while a document is read

    Once its types are declared, the builder's definitions stand in one
    relation to what has been read of a document (`Loaded`): they are the
    declared types with the additions read so far merged into them, and behind
    them the built-in scalars that fields have referred to.

    * Resolving a target may add a built-in scalar at the end, and leaves
      every name where it was (`loaded_resolve`);
    * attaching a field or a value merges one small extension
      (`loaded_attachField`, `loaded_attachValue`), and small extensions of
      one type add up to a large one (`loaded_attachFields`,
      `loaded_attachValues`).

    Names stand for types all the way, so nothing has to be said about the
    ids that resolving finds: the definitions forget them. -/

namespace Protograph

open Sdl

/-! ## What fields refer to -/

namespace Sdl

namespace TypeDefinition

/-- The names that fields refer to, in order. -/
def references : TypeDefinition → List String
  | .object _ fields => fields.map (·.type.target)
  | _ => []

end TypeDefinition

/-- The built-in scalars among `referred` that are not `declared`, in order of
    their first reference. -/
def implied (declared referred : List String) : List String :=
  (referred.filter fun n => ScalarKind.builtinNames.contains n && !declared.contains n).eraseDups

/-- A reference to a name that is there already adds nothing. -/
theorem implied_concat_old {declared referred : List String} {n : String}
    (old : n ∈ declared ∨ n ∈ implied declared referred) :
    implied declared (referred ++ [n]) = implied declared referred := by
  rw [implied, implied, List.filter_append]
  rcases old with inside | again
  · simp [inside]
  · rw [implied, List.mem_eraseDups, List.mem_filter] at again
    rw [List.filter_singleton, again.2]
    exact eraseDups_concat_of_mem (List.mem_filter.2 again)

/-- A first reference to a built-in scalar adds it at the end. -/
theorem implied_concat_new {declared referred : List String} {n : String}
    (builtin : ScalarKind.builtinNames.contains n = true) (undeclared : n ∉ declared)
    (new : n ∉ implied declared referred) :
    implied declared (referred ++ [n]) = implied declared referred ++ [n] := by
  have counts : (ScalarKind.builtinNames.contains n && !declared.contains n) = true := by
    rw [builtin]
    simp [undeclared]
  rw [implied, List.mem_eraseDups] at new
  rw [implied, List.filter_append, List.filter_singleton, counts]
  exact eraseDups_concat_of_not_mem new

end Sdl

namespace Builder

variable {b b' : Builder} {declared added : List TypeDefinition} {referred : List String}

/-- The kind of every scalar is the one its name stands for. -/
def Canonical (b : Builder) : Prop :=
  ∀ {id : TypeId} {kind : ScalarKind}, b.types[id]? = some (.scalar kind) → kind = .ofName kind.name

/-- A builder that has the `declared` types with all that is `added` merged,
    and the built-in scalars among the names `referred` to. -/
structure Loaded (declared : List TypeDefinition) (referred : List String)
    (added : List TypeDefinition) (b : Builder) : Prop where
  reached : b.Reached
  canonical : b.Canonical
  definitions : definitions b.types
    = (declared
        ++ (implied (declared.map TypeDefinition.name) referred).map TypeDefinition.scalar).map
      (TypeDefinition.merge added)

theorem canonical_push {node : TypeNode} (h : b.Canonical)
    (own : ∀ kind, node = .scalar kind → kind = .ofName kind.name) : (b.push node).Canonical := by
  intro id kind there
  rw [push, Array.getElem?_push] at there
  split at there
  · exact own kind (Option.some.inj there)
  · exact h there

theorem canonical_put {id : TypeId} {node : TypeNode} (h : b.Canonical)
    (other : ∀ kind, node ≠ .scalar kind) : (b.put id node).Canonical := by
  intro j kind there
  rw [put, Array.getElem?_modify] at there
  split at there
  · obtain ⟨old, -, same⟩ := Option.map_eq_some_iff.1 there
    exact absurd same (other kind)
  · exact h there

/-- The names that are taken in a loaded builder. -/
theorem Loaded.lookup_eq_none_iff (h : Loaded declared referred added b) {name : String} :
    b.lookup name = none ↔ name ∉ declared.map TypeDefinition.name ∧
      name ∉ implied (declared.map TypeDefinition.name) referred := by
  have names : (Protograph.definitions b.types).map TypeDefinition.name
      = declared.map TypeDefinition.name
        ++ implied (declared.map TypeDefinition.name) referred := by
    rw [h.definitions, List.map_map, List.map_append, List.map_map]
    congr 1
    · exact List.map_congr_left fun t _ => TypeDefinition.name_merge added t
    · exact List.map_id' _
  rw [lookup, h.reached.coherent.lookup_eq_none_iff, names, List.mem_append, not_or]

/-- No granted call moves a name to another id. -/
theorem lookup_granted {c : Call} {r : Reply} {name : String} {id : TypeId}
    (found : b.lookup name = some id) (granted : Granted b c r b') : b'.lookup name = some id := by
  cases granted with
  | declared asks free =>
      rw [lookup, push, List.lookup_cons]
      split
      · next same =>
          rw [eq_of_beq same, free] at found
          cases found
      · exact found
  | interned taken there => exact found
  | field inside there => exact found
  | value there => exact found

/-! ## Attaching -/

/-- What is merged counts only by what it merges to. -/
theorem Loaded.congr {more : List TypeDefinition} (h : Loaded declared referred added b)
    (same : ∀ t, TypeDefinition.merge added t = TypeDefinition.merge more t) :
    Loaded declared referred more b := by
  refine ⟨h.reached, h.canonical, ?_⟩
  rw [h.definitions]
  exact List.map_congr_left fun t _ => same t

/-- Resolving a name refers to it, and finds it. -/
theorem loaded_resolve {n : String} {id : TypeId} (h : Loaded declared referred added b)
    (done : b.resolve n = .ok (id, b')) :
    Loaded declared (referred ++ [n]) added b' ∧ b'.lookup n = some id ∧
      ∀ {m : String} {i : TypeId}, b.lookup m = some i → b'.lookup m = some i := by
  rw [resolve] at done
  split at done
  · next id' found =>
      -- a name that is taken has been declared or referred to before
      cases done
      refine ⟨⟨h.reached, h.canonical, ?_⟩, found, fun known => known⟩
      rw [h.definitions, implied_concat_old]
      by_contra fresh
      rw [not_or, ← h.lookup_eq_none_iff, found] at fresh
      cases fresh
  · next free =>
      split at done
      · next builtin =>
          have granted : b.call (.scalar (.ofName n)) = .ok (.declared id, b') := by
            rw [call, done]
            rfl
          have known := fun {m i} (found : b.lookup m = some i) =>
            lookup_granted found (granted_of_call granted)
          have reached := h.reached.call granted
          cases granted_of_call granted with
          | interned taken there =>
              -- the name is free, so no scalar can have it
              rw [ScalarKind.name_ofName, free] at taken
              cases taken
          | declared asks free' =>
              cases asks
              obtain ⟨undeclared, new⟩ := h.lookup_eq_none_iff.1 free
              refine ⟨⟨reached, canonical_push h.canonical (by simp), ?_⟩, ?_, known⟩
              · rw [push, definitions_push h.reached.coherent rfl, h.definitions,
                  implied_concat_new builtin undeclared new]
                simp [TypeDefinition.ofNode, TypeDefinition.merge]
              · simp [lookup, push, TypeNode.name]
      · cases done

/-- Attaching a field refers to its target and merges the field. -/
theorem loaded_attachField {owner : String} {id : TypeId} {field : Field String}
    (h : Loaded declared referred added b) (named : b.lookup owner = some id)
    (done : attachField id b field = .ok b') :
    Loaded declared (referred ++ [field.type.target]) (added ++ [.object owner [field]]) b' ∧
      b'.lookup owner = some id := by
  rw [attachField] at done
  split at done
  · next target next resolved =>
      obtain ⟨loaded, found, kept⟩ := loaded_resolve h resolved
      have granted : next.call
          (.field id field.name (field.type.map fun _ => target)) = .ok (.added, b') := by
        rw [call, done]
        rfl
      have coherent := loaded.reached.coherent
      have reached := loaded.reached.call granted
      have ownerKept := lookup_granted (kept named) (granted_of_call granted)
      cases granted_of_call granted with
      | @field _ _ _ o inside there =>
          obtain ⟨node, at_target, called⟩ := (coherent.indexed _ target).1 found
          have ownerName := coherent.name_eq (kept named) there
          refine ⟨⟨reached, canonical_put loaded.canonical (by simp), ?_⟩, ownerKept⟩
          rw [put, definitions_field coherent there ((nameIn_of_get at_target).trans called),
            loaded.definitions, List.map_map]
          refine List.map_congr_left fun t _ => ?_
          rw [TypeDefinition.merge_append, ← ownerName]
          rfl
  · cases done

/-- Attaching a value merges it. -/
theorem loaded_attachValue {owner : String} {id : TypeId} {value : String}
    (h : Loaded declared referred added b) (named : b.lookup owner = some id)
    (done : b.value id value = .ok b') :
    Loaded declared referred (added ++ [.enum owner [value]]) b' ∧ b'.lookup owner = some id := by
  have granted : b.call (.value id value) = .ok (.added, b') := by
    rw [call, done]
    rfl
  have coherent := h.reached.coherent
  have reached := h.reached.call granted
  have kept := lookup_granted named (granted_of_call granted)
  cases granted_of_call granted with
  | @value _ _ e there =>
      have called := coherent.name_eq named there
      refine ⟨⟨reached, canonical_put h.canonical (by simp), ?_⟩, kept⟩
      rw [put, definitions_value coherent there, h.definitions, List.map_map]
      refine List.map_congr_left fun t _ => ?_
      rw [TypeDefinition.merge_append, ← called]
      rfl

/-- Attaching fields refers to their targets and merges the fields. -/
theorem loaded_attachFields {owner : String} {fields : List (Field String)}
    (h : Loaded declared referred added b) (done : b.attachFields owner fields = .ok b') :
    Loaded declared (referred ++ TypeDefinition.references (.object owner fields))
      (added ++ [.object owner fields]) b' := by
  rw [attachFields] at done
  split at done
  · next id named =>
      have start : Loaded declared (referred ++ TypeDefinition.references (.object owner []))
          (added ++ [.object owner []]) b ∧ b.lookup owner = some id := by
        rw [TypeDefinition.references, List.map_nil, List.append_nil]
        refine ⟨h.congr fun t => ?_, named⟩
        rw [TypeDefinition.merge_append, TypeDefinition.merge_object_nil]
      refine (foldlM_ok (P := fun before b => Loaded declared
        (referred ++ TypeDefinition.references (.object owner before))
        (added ++ [.object owner before]) b ∧ b.lookup owner = some id) start ?_ done).1
      rintro before field s s' ⟨loaded, known⟩ one
      obtain ⟨more, known'⟩ := loaded_attachField loaded known one
      refine ⟨?_, known'⟩
      rw [TypeDefinition.references, List.map_append, ← List.append_assoc]
      refine more.congr fun t => ?_
      rw [List.append_assoc, TypeDefinition.merge_append, TypeDefinition.merge_objects,
        ← TypeDefinition.merge_append]
  · cases done

/-- Attaching values merges them. -/
theorem loaded_attachValues {owner : String} {values : List String}
    (h : Loaded declared referred added b) (done : b.attachValues owner values = .ok b') :
    Loaded declared referred (added ++ [.enum owner values]) b' := by
  rw [attachValues] at done
  split at done
  · next id named =>
      have start : Loaded declared referred (added ++ [.enum owner []]) b
          ∧ b.lookup owner = some id := by
        refine ⟨h.congr fun t => ?_, named⟩
        rw [TypeDefinition.merge_append, TypeDefinition.merge_enum_nil]
      refine (foldlM_ok (P := fun before b => Loaded declared referred
        (added ++ [.enum owner before]) b ∧ b.lookup owner = some id) start ?_ done).1
      rintro before value s s' ⟨loaded, known⟩ one
      obtain ⟨more, known'⟩ := loaded_attachValue loaded known one
      refine ⟨more.congr fun t => ?_, known'⟩
      rw [List.append_assoc, TypeDefinition.merge_append, TypeDefinition.merge_enums,
        ← TypeDefinition.merge_append]
  · cases done

end Builder

end Protograph
