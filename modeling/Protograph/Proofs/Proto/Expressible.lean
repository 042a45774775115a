import Protograph.Proto.Document
import Protograph.Proofs.Proto.Discovery

/-! # Expressible schemas — which have a document, and what stands in the way

    A place is a field of an object or a value of an enum.  `FaultAt` says
    what is wrong at a place, in the words of the schema alone: an earlier
    place has the name already, or a message can not hold the field's type.
    A type without faults is `Clean`.

    Blocks are made one after the other and each from its first place on, so
    the error that comes out is the fault of the first place of all, emitted
    type before place (`FirstFault`).  The checks are nested in the same way
    as the places: fields in a message, values in an enum, blocks in a
    document; `exists_first_succ` carries each of the three. -/

namespace Protograph

/-- The scalar kinds that a message field can hold. -/
def mappedKinds : List ScalarKind := [.string, .boolean, .float, .int, .long]

/-- Of two steps the second fails only when the first does not. -/
theorem sequence_error_iff {ε α β γ : Type} {first : Except ε α} {rest : Except ε β}
    {join : α → β → γ} {e : ε} :
    (first.bind fun a => rest.map (join a)) = .error e
      ↔ first = .error e ∨ (∀ d, ¬ first = .error d) ∧ rest = .error e := by
  cases first with
  | error d => simp [Except.bind]
  | ok a => cases rest <;> simp [Except.bind, Except.map]

theorem primitive?_eq_none_iff {kind : ScalarKind} : kind.primitive? = none ↔ kind ∉ mappedKinds := by
  cases kind <;> simp [ScalarKind.primitive?, mappedKinds]

namespace Graph

variable {g : Graph}

/-- What is wrong with a field when the fields before it have the names
    `earlier`.  Of several faults the one further up counts. -/
inductive FieldFault (g : Graph) (owner : String) (earlier : List String) (field : Field TypeId) :
    TranslateError → Prop where
  | repeatedName (taken : field.name ∈ earlier) :
      FieldFault g owner earlier field (.invalidGraph (.repeatedField field.name owner))
  | nestedList (free : field.name ∉ earlier) (nested : 1 < field.type.listDepth) :
      FieldFault g owner earlier field (.unsupportedType owner field.name .nestedList)
  | unmappedScalar {kind : ScalarKind} (free : field.name ∉ earlier)
      (flat : field.type.listDepth ≤ 1) (target : g.get? field.type.target = some (.scalar kind))
      (unmapped : kind ∉ mappedKinds) :
      FieldFault g owner earlier field (.unmappedScalar owner field.name kind.name)
  | interface {name : String} (free : field.name ∉ earlier) (flat : field.type.listDepth ≤ 1)
      (target : g.get? field.type.target = some (.interface name)) :
      FieldFault g owner earlier field (.unsupportedType owner field.name .interface)
  | union {name : String} (free : field.name ∉ earlier) (flat : field.type.listDepth ≤ 1)
      (target : g.get? field.type.target = some (.union name)) :
      FieldFault g owner earlier field (.unsupportedType owner field.name .union)
  | inputObject {name : String} (free : field.name ∉ earlier) (flat : field.type.listDepth ≤ 1)
      (target : g.get? field.type.target = some (.inputObject name)) :
      FieldFault g owner earlier field (.unsupportedType owner field.name .inputObject)

/-- What is wrong at the place number `k`, from zero, of the type at an id. -/
inductive FaultAt (g : Graph) (id : TypeId) : Nat → TranslateError → Prop where
  | field {k : Nat} {o : ObjectType} {field : Field TypeId} {e : TranslateError}
      (there : g.get? id = some (.object o)) (place : o.fields[k]? = some field)
      (fault : g.FieldFault o.name ((o.fields.take k).map (·.name)) field e) :
      FaultAt g id k e
  | value {k : Nat} {t : EnumType} {v : String}
      (there : g.get? id = some (.enum t)) (place : t.values[k]? = some v)
      (taken : v ∈ t.values.take k) :
      FaultAt g id k (.invalidGraph (.repeatedValue v t.name))

/-- The fault of the first place of all, by the order of the ids and then by
    the order of places within a type. -/
def FirstFault (g : Graph) (ids : List TypeId) (e : TranslateError) : Prop :=
  ∃ i k id, ids[i]? = some id ∧ g.FaultAt id k e ∧
    ∀ (j m : Nat) (other : TypeId) (d : TranslateError), ids[j]? = some other →
      g.FaultAt other m d → i < j ∨ i = j ∧ k ≤ m

/-- The target of a field that a message can hold. -/
def Holds (g : Graph) (target : TypeId) : Prop :=
  g.HasBlock target ∨ ∃ kind ∈ mappedKinds, g.get? target = some (.scalar kind)

/-- A type that can be written as a block. -/
structure Clean (g : Graph) (id : TypeId) : Prop where
  names : ∀ {o : ObjectType}, g.get? id = some (.object o) → (o.fields.map (·.name)).Nodup
  fields : ∀ {o : ObjectType} {field : Field TypeId}, g.get? id = some (.object o) →
    field ∈ o.fields → field.type.listDepth ≤ 1 ∧ g.Holds field.type.target
  values : ∀ {t : EnumType}, g.get? id = some (.enum t) → t.values.Nodup

/-! ## Fields of a message -/

/-- The checks on one field, the names of the fields before it being `seen`. -/
def checkField (g : Graph) (owner : String) (seen : List String) (field : Field TypeId) :
    Except TranslateError MessageField :=
  if seen.contains field.name then .error (.invalidGraph (.repeatedField field.name owner))
  else g.messageField owner field

theorem messageFields_cons (owner : String) (seen : List String) (field : Field TypeId)
    (fields : List (Field TypeId)) :
    g.messageFields owner seen (field :: fields)
      = (g.checkField owner seen field).bind fun first =>
          (g.messageFields owner (field.name :: seen) fields).map (first :: ·) := by
  rw [messageFields, checkField]
  split
  · rfl
  · rfl

section Field

variable {owner : String} {seen earlier : List String} {field : Field TypeId} {e : TranslateError}

theorem baseType_of_scalar {kind : ScalarKind} (unmapped : kind ∉ mappedKinds)
    (target : g.get? field.type.target = some (.scalar kind)) :
    g.baseType owner field = .error (.unmappedScalar owner field.name kind.name) := by
  rw [baseType, target]
  dsimp only
  rw [primitive?_eq_none_iff.2 unmapped]

theorem messageField_of_flat (flat : field.type.listDepth ≤ 1)
    (base : g.baseType owner field = .error e) : g.messageField owner field = .error e := by
  rw [messageField, if_neg (Nat.not_lt.2 flat), base]
  rfl

theorem checkField_of_free (free : field.name ∉ seen) :
    g.checkField owner seen field = g.messageField owner field := by
  rw [checkField, if_neg]
  rw [List.contains_iff_mem]
  exact free

/-- Every fault is reported. -/
theorem checkField_of_fault (same : field.name ∈ seen ↔ field.name ∈ earlier)
    (fault : g.FieldFault owner earlier field e) : g.checkField owner seen field = .error e := by
  cases fault with
  | repeatedName taken =>
      rw [checkField, if_pos (List.contains_iff_mem.2 (same.2 taken))]
  | nestedList free nested =>
      rw [checkField_of_free (mt same.1 free), messageField, if_pos nested]
  | unmappedScalar free flat target unmapped =>
      rw [checkField_of_free (mt same.1 free)]
      exact messageField_of_flat flat (baseType_of_scalar unmapped target)
  | interface free flat target =>
      rw [checkField_of_free (mt same.1 free)]
      exact messageField_of_flat flat (by rw [baseType, target])
  | union free flat target =>
      rw [checkField_of_free (mt same.1 free)]
      exact messageField_of_flat flat (by rw [baseType, target])
  | inputObject free flat target =>
      rw [checkField_of_free (mt same.1 free)]
      exact messageField_of_flat flat (by rw [baseType, target])

/-- Nothing else is reported of a field whose target is there. -/
theorem fault_of_checkField (inside : field.type.target < g.size)
    (same : field.name ∈ seen ↔ field.name ∈ earlier)
    (h : g.checkField owner seen field = .error e) : g.FieldFault owner earlier field e := by
  by_cases taken : field.name ∈ seen
  · rw [checkField, if_pos (List.contains_iff_mem.2 taken)] at h
    cases h
    exact .repeatedName (same.1 taken)
  · have free := mt same.2 taken
    rw [checkField_of_free taken, messageField] at h
    split at h
    · next nested =>
        cases h
        exact .nestedList free nested
    · next notNested =>
        have flat : field.type.listDepth ≤ 1 := Nat.not_lt.1 notNested
        cases base : g.baseType owner field with
        | ok b => rw [base] at h; cases h
        | error e' =>
            rw [base] at h
            cases h
            obtain ⟨node, target⟩ := exists_get? inside
            rw [baseType, target] at base
            cases node with
            | scalar kind =>
                dsimp only at base
                split at base
                · cases base
                · next none =>
                    cases base
                    exact .unmappedScalar free flat target (primitive?_eq_none_iff.1 none)
            | object o => cases base
            | enum t => cases base
            | interface name => cases base; exact .interface free flat target
            | union name => cases base; exact .union free flat target
            | inputObject name => cases base; exact .inputObject free flat target

theorem checkField_error_iff (inside : field.type.target < g.size)
    (same : field.name ∈ seen ↔ field.name ∈ earlier) :
    g.checkField owner seen field = .error e ↔ g.FieldFault owner earlier field e :=
  ⟨fault_of_checkField inside same, checkField_of_fault same⟩

/-- The faults of fields by their places, behind fields with the names `earlier`. -/
def FieldFaultAt (g : Graph) (owner : String) (earlier : List String)
    (fields : List (Field TypeId)) (k : Nat) (e : TranslateError) : Prop :=
  ∃ field, fields[k]? = some field ∧
    g.FieldFault owner (earlier ++ (fields.take k).map (·.name)) field e

theorem fieldFaultAt_zero {fields : List (Field TypeId)} :
    g.FieldFaultAt owner earlier (field :: fields) 0 e ↔ g.FieldFault owner earlier field e := by
  simp [FieldFaultAt]

theorem fieldFaultAt_succ {fields : List (Field TypeId)} (k : Nat) (e : TranslateError) :
    g.FieldFaultAt owner earlier (field :: fields) (k + 1) e
      ↔ g.FieldFaultAt owner (earlier ++ [field.name]) fields k e := by
  simp [FieldFaultAt]

/-- The fields of a message fail with the fault of the first place. -/
theorem messageFields_error_iff {fields : List (Field TypeId)}
    (inside : ∀ field ∈ fields, field.type.target < g.size)
    (same : ∀ name, name ∈ seen ↔ name ∈ earlier) :
    g.messageFields owner seen fields = .error e
      ↔ ∃ k, First (g.FieldFaultAt owner earlier fields) k e := by
  induction fields generalizing seen earlier with
  | nil =>
      constructor
      · intro h
        cases h
      · rintro ⟨k, ⟨field, there, -⟩, -⟩
        cases there
  | cons field fields ih =>
      have check : ∀ e, g.checkField owner seen field = .error e
          ↔ g.FieldFaultAt owner earlier (field :: fields) 0 e := fun e =>
        (checkField_error_iff (inside field List.mem_cons_self) (same field.name)).trans
          fieldFaultAt_zero.symm
      have rest : g.messageFields owner (field.name :: seen) fields = .error e
          ↔ ∃ k, First (g.FieldFaultAt owner (earlier ++ [field.name]) fields) k e :=
        ih (fun f later => inside f (List.mem_cons_of_mem _ later))
          (by intro name; simp [same, or_comm])
      rw [exists_first_succ, messageFields_cons, sequence_error_iff, rest]
      refine or_congr (check e) (and_congr ?_ ?_)
      · exact forall_congr' fun d => not_congr (check d)
      · exact exists_congr fun k => (First.congr fieldFaultAt_succ).symm

end Field

/-! ## Values of an enum -/

/-- The values by their places that repeat an earlier one, behind the values
    `earlier`. -/
def RepeatAt (earlier values : List String) (k : Nat) (v : String) : Prop :=
  values[k]? = some v ∧ v ∈ earlier ++ values.take k

theorem repeatAt_zero {earlier values : List String} {v w : String} :
    RepeatAt earlier (v :: values) 0 w ↔ w = v ∧ v ∈ earlier := by
  simp only [RepeatAt, List.getElem?_cons_zero, Option.some.injEq, List.take_zero, List.append_nil]
  constructor
  · rintro ⟨rfl, taken⟩
    exact ⟨rfl, taken⟩
  · rintro ⟨rfl, taken⟩
    exact ⟨rfl, taken⟩

theorem repeatAt_succ {earlier values : List String} {v : String} (k : Nat) (w : String) :
    RepeatAt earlier (v :: values) (k + 1) w ↔ RepeatAt (earlier ++ [v]) values k w := by
  simp [RepeatAt]

/-- The first repeated value is the one at the first place that repeats. -/
theorem firstRepeat_eq_some_iff {seen earlier values : List String} {w : String}
    (same : ∀ v, v ∈ seen ↔ v ∈ earlier) :
    firstRepeat seen values = some w ↔ ∃ k, First (RepeatAt earlier values) k w := by
  induction values generalizing seen earlier with
  | nil =>
      constructor
      · intro h
        cases h
      · rintro ⟨k, ⟨there, -⟩, -⟩
        cases there
  | cons v values ih =>
      have rest : firstRepeat (v :: seen) values = some w
          ↔ ∃ k, First (RepeatAt (earlier ++ [v]) values) k w :=
        ih (by intro name; simp [same, or_comm])
      have behind : (∃ k, First (fun j => RepeatAt earlier (v :: values) (j + 1)) k w)
          ↔ ∃ k, First (RepeatAt (earlier ++ [v]) values) k w :=
        exists_congr fun k => First.congr repeatAt_succ
      rw [exists_first_succ, behind, ← rest, firstRepeat]
      simp only [repeatAt_zero, List.contains_iff_mem, same]
      by_cases taken : v ∈ earlier
      · simp [taken, eq_comm]
      · simp [taken]

/-! ## Blocks -/

section Block

variable {id : TypeId}

theorem faultAt_of_object {o : ObjectType} (there : g.get? id = some (.object o)) (k : Nat)
    (e : TranslateError) : g.FaultAt id k e ↔ g.FieldFaultAt o.name [] o.fields k e := by
  rw [FieldFaultAt, List.nil_append]
  constructor
  · intro fault
    cases fault with
    | field there' place fault =>
        rw [there] at there'
        cases there'
        exact ⟨_, place, fault⟩
    | value there' place taken =>
        rw [there] at there'
        cases there'
  · rintro ⟨field, place, fault⟩
    exact .field there place fault

theorem faultAt_of_enum {t : EnumType} (there : g.get? id = some (.enum t)) (k : Nat)
    (e : TranslateError) : g.FaultAt id k e
      ↔ ∃ v, RepeatAt [] t.values k v ∧ e = .invalidGraph (.repeatedValue v t.name) := by
  constructor
  · intro fault
    cases fault with
    | field there' place fault =>
        rw [there] at there'
        cases there'
    | value there' place taken =>
        rw [there] at there'
        cases there'
        exact ⟨_, ⟨place, taken⟩, rfl⟩
  · rintro ⟨v, ⟨place, taken⟩, rfl⟩
    exact .value there place taken

theorem message_error_iff (closed : g.Closed) {o : ObjectType} {e : TranslateError}
    (there : g.get? id = some (.object o)) :
    g.message o = .error e ↔ ∃ k, First (g.FaultAt id) k e := by
  have inside : ∀ field ∈ o.fields, field.type.target < g.size := fun field member =>
    closed ⟨o, there, field, member, rfl⟩
  have fields : g.message o = .error e ↔ g.messageFields o.name [] o.fields = .error e := by
    rw [Graph.message]
    cases g.messageFields o.name [] o.fields <;> simp [Except.map]
  rw [fields, messageFields_error_iff inside fun name => Iff.rfl]
  exact exists_congr fun k => (First.congr (faultAt_of_object there)).symm

theorem enumBlock_error_iff {t : EnumType} {e : TranslateError}
    (there : g.get? id = some (.enum t)) :
    t.block = .error e ↔ ∃ k, First (g.FaultAt id) k e := by
  have values : t.block = .error e
      ↔ ∃ v, firstRepeat [] t.values = some v ∧ e = .invalidGraph (.repeatedValue v t.name) := by
    rw [EnumType.block]
    cases firstRepeat [] t.values <;> simp [eq_comm]
  rw [values]
  simp only [firstRepeat_eq_some_iff fun v => Iff.rfl]
  constructor
  · rintro ⟨v, ⟨k, here, before⟩, rfl⟩
    refine ⟨k, (faultAt_of_enum there k _).2 ⟨v, here, rfl⟩, ?_⟩
    intro j lt d fault
    obtain ⟨w, repeats, -⟩ := (faultAt_of_enum there j d).1 fault
    exact before j lt w repeats
  · rintro ⟨k, here, before⟩
    obtain ⟨v, repeats, rfl⟩ := (faultAt_of_enum there k e).1 here
    refine ⟨v, ⟨k, repeats, ?_⟩, rfl⟩
    intro j lt w earlier
    exact before j lt _ ((faultAt_of_enum there j _).2 ⟨w, earlier, rfl⟩)

/-- The block of an object or an enum fails with the fault of its first place. -/
theorem block_error_iff (closed : g.Closed) (block : g.HasBlock id) {e : TranslateError} :
    g.block id = .error e ↔ ∃ k, First (g.FaultAt id) k e := by
  rw [Graph.block]
  rcases block with ⟨o, there⟩ | ⟨t, there⟩
  · rw [there]
    exact message_error_iff closed there
  · rw [there]
    exact enumBlock_error_iff there

theorem block_error_of_fault (closed : g.Closed) {k : Nat} {e : TranslateError}
    (fault : g.FaultAt id k e) : ∃ d, g.block id = .error d := by
  have block : g.HasBlock id := by
    cases fault with
    | field there place fault => exact Or.inl ⟨_, there⟩
    | value there place taken => exact Or.inr ⟨_, there⟩
  obtain ⟨m, d, first⟩ := exists_first fault
  exact ⟨d, (block_error_iff closed block).2 ⟨m, first⟩⟩

/-- A type is clean when no place of it has a fault. -/
theorem clean_iff (closed : g.Closed) : g.Clean id ↔ ∀ k e, ¬ g.FaultAt id k e := by
  constructor
  · intro clean k e fault
    cases fault with
    | value there place taken =>
        exact nodup_iff_not_mem_take.1 (clean.values there) k _ place taken
    | @field o field _ there place fault =>
        have names : field.name ∉ (o.fields.take k).map (·.name) := by
          rw [List.map_take]
          refine nodup_iff_not_mem_take.1 (clean.names there) k _ ?_
          rw [List.getElem?_map, place]
          rfl
        -- distinct names exclude the first fault, what the field holds the others
        obtain ⟨flat, holds⟩ := clean.fields there (List.mem_of_getElem? place)
        cases fault with
        | repeatedName taken => exact names taken
        | nestedList free nested => omega
        | unmappedScalar free flat target unmapped =>
            rcases holds with (⟨o, other⟩ | ⟨t, other⟩) | ⟨kind, mapped, other⟩
            · rw [target] at other; cases other
            · rw [target] at other; cases other
            · rw [target] at other; cases other; exact unmapped mapped
        | interface free flat target | union free flat target | inputObject free flat target =>
            rcases holds with (⟨o, other⟩ | ⟨t, other⟩) | ⟨kind, mapped, other⟩ <;>
              rw [target] at other <;> cases other
  · intro sound
    constructor
    · intro o there
      refine nodup_iff_not_mem_take.2 fun k name at_k taken => ?_
      rw [List.getElem?_map] at at_k
      obtain ⟨field, place, rfl⟩ := Option.map_eq_some_iff.1 at_k
      rw [← List.map_take] at taken
      exact sound k _ (.field there place (.repeatedName taken))
    · intro o field there member
      obtain ⟨k, place⟩ := List.mem_iff_getElem?.1 member
      have free : field.name ∉ (o.fields.take k).map (·.name) := fun taken =>
        sound k _ (.field there place (.repeatedName taken))
      have flat : field.type.listDepth ≤ 1 := by
        refine Nat.le_of_not_lt fun nested => ?_
        exact sound k _ (.field there place (.nestedList free nested))
      refine ⟨flat, ?_⟩
      have inside := closed ⟨o, there, field, member, rfl⟩
      obtain ⟨node, target⟩ := exists_get? inside
      cases node with
      | object o => exact Or.inl (Or.inl ⟨o, target⟩)
      | enum t => exact Or.inl (Or.inr ⟨t, target⟩)
      | scalar kind =>
          by_cases mapped : kind ∈ mappedKinds
          · exact Or.inr ⟨kind, mapped, target⟩
          · exact absurd (.field there place (.unmappedScalar free flat target mapped)) (sound k _)
      | interface name =>
          exact absurd (.field there place (.interface free flat target)) (sound k _)
      | union name => exact absurd (.field there place (.union free flat target)) (sound k _)
      | inputObject name =>
          exact absurd (.field there place (.inputObject free flat target)) (sound k _)
    · intro t there
      refine nodup_iff_not_mem_take.2 fun k v place taken => ?_
      exact sound k _ (.value there place taken)

end Block

/-! ## Documents -/

section Document

variable {ids : List TypeId} {e : TranslateError}

theorem result_blocks_cons (id : TypeId) (ids : List TypeId) :
    (g.blocks (id :: ids)).result
      = (g.block id).bind fun block => (g.blocks ids).result.map (block :: ·) := by
  rw [blocks, Traced.result_bind]
  congr 1
  funext block
  rw [Traced.result_bind, Traced.result_bind]
  rfl

/-- The blocks fail with the error of the first that fails. -/
theorem blocks_error_iff : (g.blocks ids).result = .error e
    ↔ ∃ i, First (fun i e => ∃ id, ids[i]? = some id ∧ g.block id = .error e) i e := by
  induction ids with
  | nil =>
      constructor
      · intro h
        cases h
      · rintro ⟨i, ⟨id, there, -⟩, -⟩
        cases there
  | cons id ids ih =>
      rw [exists_first_succ, result_blocks_cons, sequence_error_iff, ih]
      simp

/-- The first fault of all is the first fault of the first type that has one. -/
theorem firstFault_iff (closed : g.Closed) (block : ∀ id ∈ ids, g.HasBlock id) :
    (g.blocks ids).result = .error e ↔ g.FirstFault ids e := by
  rw [blocks_error_iff]
  constructor
  · rintro ⟨i, ⟨id, there, failed⟩, before⟩
    obtain ⟨k, fault, first⟩ :=
      (block_error_iff closed (block id (List.mem_of_getElem? there))).1 failed
    refine ⟨i, k, id, there, fault, ?_⟩
    intro j m other d at_j later
    rcases Nat.lt_trichotomy i j with lt | rfl | gt
    · exact Or.inl lt
    · rw [there] at at_j
      cases at_j
      exact Or.inr ⟨rfl, Nat.le_of_not_lt fun lt => first m lt d later⟩
    · -- a fault in front of it would have come out there
      obtain ⟨d', failed'⟩ := block_error_of_fault closed later
      exact absurd ⟨other, at_j, failed'⟩ (before j gt d')
  · rintro ⟨i, k, id, there, fault, first⟩
    have failed : g.block id = .error e := by
      refine (block_error_iff closed (block id (List.mem_of_getElem? there))).2 ⟨k, fault, ?_⟩
      intro m lt d earlier
      rcases first i m id d there earlier with lt' | ⟨-, le⟩ <;> omega
    refine ⟨i, ⟨id, there, failed⟩, ?_⟩
    rintro j lt d ⟨other, at_j, failed'⟩
    obtain ⟨m, earlier, -⟩ :=
      (block_error_iff closed (block other (List.mem_of_getElem? at_j))).1 failed'
    rcases first j m other d at_j earlier with lt' | ⟨same, -⟩ <;> omega

/-- All blocks are made exactly when all types are clean. -/
theorem blocks_ok_iff (closed : g.Closed) (block : ∀ id ∈ ids, g.HasBlock id) :
    (∃ blocks, (g.blocks ids).result = .ok blocks) ↔ ∀ id ∈ ids, g.Clean id := by
  constructor
  · rintro ⟨blocks, done⟩ id member
    refine (clean_iff closed).2 fun k e fault => ?_
    obtain ⟨i, there⟩ := List.mem_iff_getElem?.1 member
    -- one block that fails keeps the others from being made
    obtain ⟨d, failed⟩ := block_error_of_fault closed fault
    obtain ⟨j, d', first⟩ :=
      exists_first (P := fun i e => ∃ id, ids[i]? = some id ∧ g.block id = .error e)
        ⟨id, there, failed⟩
    rw [blocks_error_iff.2 ⟨j, first⟩] at done
    cases done
  · intro clean
    cases done : (g.blocks ids).result with
    | ok blocks => exact ⟨blocks, rfl⟩
    | error e =>
        obtain ⟨i, k, id, there, fault, -⟩ := (firstFault_iff closed block).1 done
        exact absurd fault ((clean_iff closed).1 (clean id (List.mem_of_getElem? there)) k e)

/-- Behind a finished walk a document fails exactly as its blocks do. -/
theorem translate_error_of_walk (walked : g.emissionList = .ok ids) (o : Options) :
    (g.translate o).result = .error e ↔ (g.blocks ids).result = .error e := by
  rw [translate, Traced.result_bind]
  rw [emissionList] at walked
  rw [walked]
  show ((g.blocks ids >>= _).result = _) ↔ _
  rw [Traced.result_bind]
  cases (g.blocks ids).result with
  | error d => simp [Except.bind]
  | ok blocks =>
      constructor
      · intro h
        cases h
      · intro h
        cases h

theorem translate_ok_of_walk (walked : g.emissionList = .ok ids) (o : Options) :
    (∃ text, (g.translate o).result = .ok text) ↔ ∃ blocks, (g.blocks ids).result = .ok blocks := by
  have failure := fun e => translate_error_of_walk (e := e) walked o
  cases done : (g.blocks ids).result with
  | ok blocks =>
      cases written : (g.translate o).result with
      | ok text => simp
      | error e =>
          rw [failure, done] at written
          cases written
  | error e =>
      rw [(failure e).2 done]
      simp

/-- A root without a name is the only thing that stops the walk. -/
theorem translate_unnamed (built : g.Built) (unnamed : g.rootName = "") (o : Options) :
    (g.translate o).result = .error (.invalidGraph .rootUnnamed) := by
  obtain ⟨t, root⟩ := built.root_object
  have noRoot : g.rootObject = .error (.invalidGraph .rootUnnamed) := by
    rw [rootName_of_get root] at unnamed
    rw [rootObject, root]
    exact if_pos unnamed
  simp only [translate, walk, Traced.result_bind, Traced.ofExcept, noRoot]
  rfl

/-- No fault of a place is a fault of the walk or of the choice of blocks. -/
theorem FaultAt.not_internal {id : TypeId} {k : Nat} {fault : GraphFault}
    (h : g.FaultAt id k (.invalidGraph fault)) :
    (∀ owner field target, fault ≠ .danglingField owner field target) ∧
      (∀ variant name, fault ≠ .notABlock variant name) ∧ ∀ id, fault ≠ .missingType id := by
  cases h with
  | field there place wrong => cases wrong; simp
  | value there place taken => simp

/-- **WHICH SCHEMAS HAVE A DOCUMENT**: those with a named root whose objects
    and enums within reach are all clean.  Otherwise the error is that of an
    unnamed root or else the fault of the first place of all, whatever the
    options are; faults that a finished schema can not have never come out. -/
theorem translate_exact (built : g.Built) (o : Options) :
    ((∃ text, (g.translate o).result = .ok text) ↔
      g.rootName ≠ "" ∧ ∀ id, g.Reachable id → g.HasBlock id → g.Clean id) ∧
    (g.rootName ≠ "" → ∀ e, (g.translate o).result = .error e ↔
      ∃ ids, g.emissionList = .ok ids ∧ g.FirstFault ids e) ∧
    ∀ fault, (g.translate o).result = .error (.invalidGraph fault) →
      (∀ owner field target, fault ≠ .danglingField owner field target) ∧
      (∀ variant name, fault ≠ .notABlock variant name) ∧ ∀ id, fault ≠ .missingType id := by
  by_cases unnamed : g.rootName = ""
  · rw [translate_unnamed built unnamed o]
    simp [unnamed]
  · obtain ⟨ids, walked, h⟩ := built.emission unnamed
    have block : ∀ id ∈ ids, g.HasBlock id := fun id member => ((h.mem_iff id).1 member).2
    have error : ∀ e, (g.translate o).result = .error e ↔ g.FirstFault ids e := fun e =>
      (translate_error_of_walk walked o).trans (firstFault_iff built.closed block)
    refine ⟨?_, fun _ e => ?_, ?_⟩
    · rw [translate_ok_of_walk walked, blocks_ok_iff built.closed block]
      constructor
      · intro clean
        exact ⟨unnamed, fun id reached isBlock => clean id ((h.mem_iff id).2 ⟨reached, isBlock⟩)⟩
      · rintro ⟨-, clean⟩ id member
        obtain ⟨reached, isBlock⟩ := (h.mem_iff id).1 member
        exact clean id reached isBlock
    · rw [error]
      constructor
      · intro first
        exact ⟨ids, walked, first⟩
      · rintro ⟨others, walked', first⟩
        rw [walked] at walked'
        cases walked'
        exact first
    · intro fault failed
      obtain ⟨i, k, id, -, wrong, -⟩ := (error _).1 failed
      exact wrong.not_internal

theorem bookshop_firstFault :
    bookshop.Built ∧ bookshop.rootName ≠ "" ∧ ∃ ids, bookshop.emissionList = .ok ids ∧
      bookshop.FirstFault ids (.unsupportedType "Author" "home" .interface) := by
  have failed : (bookshop.translate {}).result
      = .error (.unsupportedType "Author" "home" .interface) := by decide +kernel
  have named : bookshop.rootName ≠ "" := by decide
  exact ⟨bookshop_built, named, ((translate_exact bookshop_built {}).2.1 named _).1 failed⟩

end Document

end Graph

end Protograph
