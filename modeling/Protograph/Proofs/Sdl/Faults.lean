import Protograph.Proofs.Sdl.Loading

/-! # Faults — what can be wrong with a document

    `Document.faults` lists what is wrong with a document in the order in
    which it is looked at: definitions that clash, fields of definitions whose
    types are unknown, then extension by extension what it extends and what it
    adds, and the root at last.  The list is made from the document alone.  Of
    the course that loading takes only one thing shows in it: a built-in
    scalar can be extended only once a field has referred to it (`Known`).

    A document without faults is `Sound`, which is said without any order
    except that one (`Document.faults_eq_nil_iff`). -/

namespace Protograph

open Sdl

namespace Sdl

section Faults

variable (types : List TypeDefinition)

/-- What sort of type is defined, in words. -/
def TypeDefinition.variant : TypeDefinition → String
  | .scalar _ => "scalar"
  | .object .. => "object"
  | .interface _ => "interface"
  | .union _ => "union"
  | .enum .. => "enum"
  | .inputObject _ => "input object"

/-- Two definitions of one name that are not both scalars. -/
def TypeDefinition.Clashes (t u : TypeDefinition) : Prop :=
  t.name = u.name ∧ ¬ (t.variant = "scalar" ∧ u.variant = "scalar")

/-- There is a definition of that sort and name. -/
def Defines (variant n : String) : Prop := ∃ t ∈ types, t.variant = variant ∧ t.name = n

/-- A field can refer to this name. -/
def Resolvable (n : String) : Prop :=
  n ∈ types.map TypeDefinition.name ∨ n ∈ ScalarKind.builtinNames

/-- A type of this name is there, when fields have referred to the names `referred`. -/
def Known (referred : List String) (n : String) : Prop :=
  n ∈ types.map TypeDefinition.name ∨ n ∈ ScalarKind.builtinNames ∧ n ∈ referred

instance (t u : TypeDefinition) : Decidable (t.Clashes u) :=
  inferInstanceAs (Decidable (_ ∧ _))

instance (variant n : String) : Decidable (Defines types variant n) :=
  inferInstanceAs (Decidable (∃ t ∈ types, t.variant = variant ∧ t.name = n))

instance (n : String) : Decidable (Resolvable types n) :=
  inferInstanceAs (Decidable (_ ∨ _))

instance (referred : List String) (n : String) : Decidable (Known types referred n) :=
  inferInstanceAs (Decidable (_ ∨ _))

/-- A definition clashes with one before it. -/
def clashFaults (before : List TypeDefinition) (t : TypeDefinition) : List SchemaError :=
  if ∃ u ∈ before, u.Clashes t then [.duplicateType t.name] else []

/-- Fields of a definition refer to unknown types. -/
def unresolvedFaults (t : TypeDefinition) : List SchemaError :=
  t.references.flatMap fun n => if Resolvable types n then [] else [.unknownType n]

/-- A field refers to an unknown type, or else is none of an object. -/
def fieldFaults (owner : String) (field : Field String) : List SchemaError :=
  if Resolvable types field.type.target then
    if Defines types "object" owner then [] else [.notAnObject owner]
  else [.unknownType field.type.target]

/-- A value is none of an enum. -/
def valueFaults (owner : String) (_value : String) : List SchemaError :=
  if Defines types "enum" owner then [] else [.notAnEnum owner]

/-- The faults of what an extension adds. -/
def additionFaults : TypeDefinition → List SchemaError
  | .object n fields => fields.flatMap (fieldFaults types n)
  | .enum n values => values.flatMap (valueFaults types n)
  | _ => []

/-- An extension of an unknown type, or else the faults of what it adds. -/
def extensionFaults (before : List TypeDefinition) (x : TypeDefinition) : List SchemaError :=
  if Known types ((types ++ before).flatMap (·.references)) x.name then additionFaults types x
  else [.unknownType x.name]

end Faults

namespace Document

variable (d : Document)

/-- The root is unknown, or else is no object. -/
def rootFaults : List SchemaError :=
  if Known d.types ((d.types ++ d.extensions).flatMap (·.references)) d.queryName then
    if Defines d.types "object" d.queryName then [] else [.invalidRoot d.queryName]
  else [.missingRoot]

/-- All that is wrong with a document, in the order in which it is looked at. -/
def faults : List SchemaError :=
  along clashFaults [] d.types
    ++ d.types.flatMap (unresolvedFaults d.types)
    ++ along (extensionFaults d.types) [] d.extensions
    ++ d.rootFaults

/-- A document that defines a schema. -/
structure Sound : Prop where
  /-- Definitions of one name are one and the same scalar. -/
  distinct : Distinct d.types
  /-- Fields of definitions and extensions refer to declared types and built-in scalars. -/
  resolvable : ∀ t ∈ d.types ++ d.extensions, ∀ n ∈ t.references, Resolvable d.types n
  /-- What is extended is declared, or is a built-in scalar that a definition or an
      extension before refers to. -/
  known : ∀ before x after, d.extensions = before ++ x :: after →
    Known d.types ((d.types ++ before).flatMap (·.references)) x.name
  /-- Fields are added to objects. -/
  objects : ∀ n fields, .object n fields ∈ d.extensions → fields ≠ [] →
    Defines d.types "object" n
  /-- Values are added to enums. -/
  enums : ∀ n values, .enum n values ∈ d.extensions → values ≠ [] →
    Defines d.types "enum" n
  /-- The root is an object. -/
  root : Defines d.types "object" d.queryName

end Document

/-! ## Sound documents -/

theorem TypeDefinition.eq_scalar_of_variant {t : TypeDefinition} (h : t.variant = "scalar") :
    t = .scalar t.name := by
  cases t <;> simp [variant] at h
  rfl

theorem both_scalars_iff {t u : TypeDefinition} (same : t.name = u.name) :
    (t.variant = "scalar" ∧ u.variant = "scalar") ↔ ∃ n, t = .scalar n ∧ u = .scalar n := by
  constructor
  · rintro ⟨left, right⟩
    refine ⟨t.name, TypeDefinition.eq_scalar_of_variant left, ?_⟩
    rw [same]
    exact TypeDefinition.eq_scalar_of_variant right
  · rintro ⟨n, rfl, rfl⟩
    exact ⟨rfl, rfl⟩

theorem clashFaults_eq_nil_iff {types : List TypeDefinition} :
    along clashFaults [] types = [] ↔ Distinct types := by
  induction types using List.reverseRecOn with
  | nil => exact ⟨fun _ => .nil, fun _ => rfl⟩
  | append_singleton types t ih =>
      have last : clashFaults types t = []
          ↔ ∀ u ∈ types, u.name = t.name → ∃ n, u = .scalar n ∧ t = .scalar n := by
        rw [clashFaults, ite_eq_right_iff]
        constructor
        · intro clear u inside same
          rw [← both_scalars_iff same]
          by_contra differ
          exact nomatch clear ⟨u, inside, same, differ⟩
        · rintro scalars ⟨u, inside, same, differ⟩
          exact absurd ((both_scalars_iff same).2 (scalars u inside same)) differ
      rw [along_append, List.append_eq_nil_iff, ih, along, along, List.append_nil, List.nil_append,
        last, Distinct, Distinct, List.pairwise_append]
      simp

variable {types : List TypeDefinition}

theorem unresolvedFaults_eq_nil_iff {t : TypeDefinition} :
    unresolvedFaults types t = [] ↔ ∀ n ∈ t.references, Resolvable types n := by
  simp [unresolvedFaults]

theorem fieldFaults_eq_nil_iff {owner : String} {field : Field String} :
    fieldFaults types owner field = []
      ↔ Resolvable types field.type.target ∧ Defines types "object" owner := by
  rw [fieldFaults]
  by_cases resolvable : Resolvable types field.type.target
  · simp [resolvable]
  · simp [resolvable]

theorem additionFaults_eq_nil_iff {x : TypeDefinition} : additionFaults types x = []
    ↔ (∀ n ∈ x.references, Resolvable types n)
      ∧ (∀ n fields, x = .object n fields → fields ≠ [] → Defines types "object" n)
      ∧ ∀ n values, x = .enum n values → values ≠ [] → Defines types "enum" n := by
  cases x with
  | object n fields =>
      rw [additionFaults, List.flatMap_eq_nil_iff, TypeDefinition.references]
      simp only [fieldFaults_eq_nil_iff]
      constructor
      · intro each
        refine ⟨?_, ?_, ?_⟩
        · intro m refers
          obtain ⟨field, inside, rfl⟩ := List.mem_map.1 refers
          exact (each field inside).1
        · intro m more same nonempty
          cases same
          obtain ⟨field, inside⟩ := List.exists_mem_of_ne_nil fields nonempty
          exact (each field inside).2
        · intro m values impossible
          cases impossible
      · rintro ⟨resolvable, object, -⟩ field inside
        refine ⟨resolvable _ (List.mem_map.2 ⟨field, inside, rfl⟩), ?_⟩
        exact object n fields rfl (List.ne_nil_of_mem inside)
  | enum n values =>
      rw [additionFaults, List.flatMap_eq_nil_iff]
      simp only [valueFaults, ite_eq_left_iff]
      constructor
      · intro each
        refine ⟨?_, ?_, ?_⟩
        · intro m refers
          cases refers
        · intro m fields impossible
          cases impossible
        · intro m more same nonempty
          cases same
          obtain ⟨value, inside⟩ := List.exists_mem_of_ne_nil values nonempty
          by_contra other
          cases each value inside other
      · rintro ⟨-, -, enum⟩ value inside other
        exact absurd (enum n values rfl (List.ne_nil_of_mem inside)) other
  | _ => simp [additionFaults, TypeDefinition.references]

theorem extensionFaults_eq_nil_iff {before : List TypeDefinition} {x : TypeDefinition} :
    extensionFaults types before x = []
      ↔ Known types ((types ++ before).flatMap (·.references)) x.name
        ∧ additionFaults types x = [] := by
  rw [extensionFaults]
  split
  · next known => exact ⟨fun clear => ⟨known, clear⟩, fun both => both.2⟩
  · next unknown => exact ⟨(nomatch ·), fun both => absurd both.1 unknown⟩

namespace Document

variable {d : Document}

theorem rootFaults_eq_nil_iff : d.rootFaults = [] ↔ Defines d.types "object" d.queryName := by
  rw [rootFaults]
  by_cases object : Defines d.types "object" d.queryName
  · have known : Known d.types ((d.types ++ d.extensions).flatMap (·.references))
        d.queryName := by
      obtain ⟨t, inside, -, named⟩ := object
      exact Or.inl (List.mem_map.2 ⟨t, inside, named⟩)
    rw [if_pos known, if_pos object]
    exact iff_of_true rfl object
  · rw [if_neg object]
    refine iff_of_false ?_ object
    split <;> simp

theorem faults_eq_nil_iff : d.faults = [] ↔ d.Sound := by
  rw [faults, List.append_eq_nil_iff, List.append_eq_nil_iff, List.append_eq_nil_iff,
    clashFaults_eq_nil_iff, List.flatMap_eq_nil_iff, along_eq_nil_iff, rootFaults_eq_nil_iff]
  simp only [unresolvedFaults_eq_nil_iff, extensionFaults_eq_nil_iff, additionFaults_eq_nil_iff]
  constructor
  · rintro ⟨⟨⟨distinct, resolvable⟩, extensions⟩, root⟩
    have each : ∀ x ∈ d.extensions, (∀ n ∈ x.references, Resolvable d.types n)
        ∧ (∀ n fields, x = .object n fields → fields ≠ [] → Defines d.types "object" n)
        ∧ ∀ n values, x = .enum n values → values ≠ [] → Defines d.types "enum" n := by
      intro x inside
      obtain ⟨before, after, split⟩ := List.append_of_mem inside
      exact (extensions before x after split).2
    exact
      { distinct := distinct
        resolvable := by
          intro t inside
          rcases List.mem_append.1 inside with defined | extended
          · exact resolvable t defined
          · exact (each t extended).1
        known := fun before x after split => (extensions before x after split).1
        objects := fun n fields inside => (each _ inside).2.1 n fields rfl
        enums := fun n values inside => (each _ inside).2.2 n values rfl
        root := root }
  · intro sound
    refine ⟨⟨⟨sound.distinct, ?_⟩, ?_⟩, sound.root⟩
    · intro t inside
      exact sound.resolvable t (List.mem_append_left _ inside)
    · intro before x after split
      have inside : x ∈ d.extensions := by
        rw [split]
        exact List.mem_append_right before List.mem_cons_self
      refine ⟨sound.known before x after split,
        sound.resolvable x (List.mem_append_right _ inside), ?_, ?_⟩
      · rintro n fields rfl
        exact sound.objects n fields inside
      · rintro n values rfl
        exact sound.enums n values inside

end Document

end Sdl

end Protograph
