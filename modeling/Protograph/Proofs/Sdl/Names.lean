import Protograph.Proofs.Proto.ReadBack
import Protograph.Proofs.Sdl.Acceptance

/-! # Names — what a schema text calls its types, fields and values

    Whatever a text calls a type, a field or an enum value was a word of the
    text, and words that are names are identifiers (`named_scan`).  A reader
    takes words from the front and makes nothing up, so what it yields is
    named as the words are: `Yields` says this of a reader once, two readers
    one after the other yield what the second yields (`Yields.bind`), and the
    grammar follows part by part (`named_ofString`).

    Loading adds no name but those of the built-in scalars.  So the schema of
    a text is well named (`Graph.wellNamed_of_ofSdl`). -/

namespace Protograph

open Sdl

/-! ## Words -/

namespace Sdl

/-- A word that is an identifier if it is a name. -/
def Token.Named : Token → Prop
  | .name n => isName n
  | _ => True

/-- Words of which the names are identifiers. -/
def Lexemes.Named : Lexemes → Prop
  | .stop _ _ => True
  | .next _ t rest => t.Named ∧ rest.Named

theorem named_number? {text : List Char} {t : Token} (h : number? text = some t) : t.Named := by
  rw [number?] at h
  split at h
  · split at h
    · cases h
      trivial
    · cases h
  · split at h
    · cases h
      trivial
    · cases h

theorem isName_takeWhile {c : Char} (start : isNameStart c = true) (cs : List Char) :
    isName (String.ofList (c :: cs.takeWhile isNameRest)) := by
  rw [isName, String.toList_ofList]
  show (isNameStart c && (cs.takeWhile isNameRest).all isNameRest) = true
  rw [start, List.all_takeWhile]
  rfl

theorem named_lex {c : Char} {cs : List Char} {t : Token} {more : Nat}
    (h : Token.lex c cs = some (t, more)) : t.Named := by
  -- of all words only the one that begins like a name is a name
  rw [Token.lex.eq_def] at h
  split at h
  · cases h
    trivial
  · split at h
    · next start =>
        cases h
        exact isName_takeWhile start cs
    · split at h
      · obtain ⟨t', number, same⟩ := Option.map_eq_some_iff.1 h
        cases same
        exact named_number? number
      · split at h
        · split at h
          · cases h
            trivial
          · cases h
        · split at h
          · split at h
            · obtain ⟨body, -, same⟩ := Option.map_eq_some_iff.1 h
              cases same
              trivial
            · obtain ⟨body, -, same⟩ := Option.map_eq_some_iff.1 h
              cases same
              trivial
          · cases h

theorem named_scan (p : Position) (cs : List Char) : (Lexemes.scan p cs).Named := by
  fun_induction Lexemes.scan p cs with
  | case1 => trivial
  | case2 p c cs blank ih => exact ih
  | case3 p cs _ ih => exact ih
  | case4 p c cs _ _ ignored ih => exact ih
  | case5 => assumption
  | case6 => trivial
  | case7 => assumption
  | case8 => trivial
  | case9 p c cs _ _ _ _ _ t more lexed ih => exact ⟨named_lex lexed, ih⟩

/-! ## Readers -/

namespace Grammar

variable {α β : Type} {P : α → Prop} {Q : β → Prop}

/-- From named words the reader takes a value with the property, and leaves named words. -/
def Yields (r : WordReader α) (P : α → Prop) : Prop :=
  ∀ (c c' : Cursor Lexemes) (a : α), c.rest.Named → r c = .ok (a, c') → P a ∧ c'.rest.Named

/-- The reader leaves named words; of its value nothing is said. -/
abbrev Keeps (r : WordReader α) : Prop := Yields r fun _ => True

theorem yields_pure {a : α} (h : P a) : Yields (pure a) P := by
  intro c c' a' named done
  cases done
  exact ⟨h, named⟩

theorem keeps_pure {a : α} : Keeps (pure a) := yields_pure trivial

theorem Yields.bind {r : WordReader α} {f : α → WordReader β} (h : Yields r P)
    (next : ∀ a, P a → Yields (f a) Q) : Yields (r >>= f) Q := by
  intro c c' b named done
  simp only [Bind.bind] at done
  cases first : r c with
  | error e =>
      rw [first] at done
      cases done
  | ok taken =>
      obtain ⟨a, c₁⟩ := taken
      rw [first] at done
      obtain ⟨hold, named'⟩ := h c c₁ a named first
      exact next a hold c₁ c' b named' done

/-- What a reader keeps is left to the next one, whatever the value was. -/
theorem Yields.andThen {r : WordReader α} {f : α → WordReader β} (h : Yields r P)
    (next : ∀ a, Yields (f a) Q) : Yields (r >>= f) Q := h.bind fun a _ => next a

theorem yields_ite {p : Prop} [Decidable p] {r s : WordReader α} (h : Yields r P)
    (h' : Yields s P) : Yields (if p then r else s) P := by
  split
  · exact h
  · exact h'

theorem yields_fail (e : Position) : Yields (Reader.fail e : WordReader α) P := by
  intro c c' a named done
  cases done

theorem yields_refuse : Yields (refuse : WordReader α) P := by
  intro c c' a named done
  cases done

theorem yields_peek : Yields peek fun t? => ∀ n, t? = some (.name n) → isName n := by
  rintro ⟨words, left⟩ c' t? named done
  cases done
  refine ⟨?_, named⟩
  cases words with
  | stop p atEnd =>
      intro n impossible
      cases impossible
  | next p t rest =>
      rintro n same
      obtain rfl : t = .name n := Option.some.inj same
      exact named.1

theorem keeps_place : Keeps place := by
  intro c c' a named done
  cases done
  exact ⟨trivial, named⟩

theorem keeps_skip : Keeps skip := by
  rintro ⟨words, left⟩ c' a named done
  cases done
  cases words with
  | stop p atEnd => exact ⟨trivial, trivial⟩
  | next p t rest => exact ⟨trivial, named.2⟩

theorem keeps_expect (t : Token) : Keeps (expect t) :=
  yields_peek.andThen fun _ => yields_ite keeps_skip yields_refuse

theorem keeps_accept (t : Token) : Keeps (accept t) :=
  yields_peek.andThen fun _ => yields_ite (keeps_skip.andThen fun _ => keeps_pure) keeps_pure

theorem yields_name : Yields name fun n => isName n := by
  refine yields_peek.bind fun t? named => ?_
  split
  · next n => exact keeps_skip.andThen fun _ => yields_pure (named n rfl)
  · exact yields_refuse

theorem yields_repeated {more : Option Token → Bool} {item : WordReader α} (h : Yields item P) :
    Yields (repeated more item) fun as => ∀ a ∈ as, P a := by
  intro c
  show ∀ c' as, c.rest.Named → Reader.many _ item c = .ok (as, c') → _
  fun_induction Reader.many (fun words => more words.token?) item c with
  | case1 c goesOn e failed =>
      intro c' as named done
      cases done
  | case2 c goesOn a c₁ first shorter e failed ih =>
      intro c' as named done
      cases done
  | case3 c goesOn a c₁ first shorter as₁ c₂ rest ih =>
      intro c' as named done
      cases done
      obtain ⟨hold, named₁⟩ := h c c₁ a named first
      obtain ⟨holds, named₂⟩ := ih c₂ as₁ named₁ rest
      exact ⟨List.forall_mem_cons.2 ⟨hold, holds⟩, named₂⟩
  | case4 c goesOn a c₁ first longer =>
      intro c' as named done
      cases done
      obtain ⟨hold, named₁⟩ := h c c₁ a named first
      exact ⟨List.forall_mem_singleton.2 hold, named₁⟩
  | case5 c ends =>
      intro c' as named done
      cases done
      exact ⟨List.forall_mem_nil P, named⟩

theorem yields_itemsUntil {closing : Char} {item : WordReader α} (h : Yields item P) :
    Yields (itemsUntil closing item) fun as => ∀ a ∈ as, P a :=
  (yields_repeated h).bind fun _ holds => (keeps_expect _).andThen fun _ => yields_pure holds

theorem yields_someUntil {closing : Char} {item : WordReader α} (h : Yields item P) :
    Yields (someUntil closing item) fun as => ∀ a ∈ as, P a :=
  h.bind fun _ hold => (yields_itemsUntil h).bind fun _ holds =>
    yields_pure (List.forall_mem_cons.2 ⟨hold, holds⟩)

theorem yields_bracket {opening : Char} (room : Nat) {inside : Nat → WordReader α}
    (h : ∀ room, Yields (inside room) P) : Yields (bracket opening room inside) P := by
  cases room with
  | zero => exact yields_refuse
  | succ room => exact (keeps_expect _).andThen fun _ => h room

/-! ## The grammar -/

theorem keeps_value (constant : Bool) (room : Nat) : Keeps (value constant room) := by
  induction room using Nat.strong_induction_on with
  | _ room ih =>
      rw [value.eq_def]
      refine yields_peek.andThen fun t? => ?_
      split
      · exact keeps_skip
      · exact yields_ite keeps_skip yields_refuse
      · exact keeps_skip
      · exact yields_ite keeps_skip yields_refuse
      · exact keeps_skip
      · refine yields_ite (keeps_skip.andThen fun _ => yields_name.andThen fun _ => keeps_pure) ?_
        split
        · exact yields_refuse
        · next room =>
            have inner := ih room (Nat.lt_succ_self room)
            have entry : Keeps (do
                let _ ← name
                expect (.punct ':')
                value constant room) :=
              yields_name.andThen fun _ => (keeps_expect _).andThen fun _ => inner
            refine yields_ite (keeps_skip.andThen fun _ => ?_)
              (yields_ite (keeps_skip.andThen fun _ => ?_) yields_refuse)
            · exact (yields_itemsUntil inner).andThen fun _ => keeps_pure
            · exact (yields_itemsUntil entry).andThen fun _ => keeps_pure
      · exact yields_refuse

theorem keeps_typeRef (room : Nat) : Keeps (typeRef room) := by
  have marked : ∀ written : TypeRef String, Keeps (do
      if ← accept (.punct '!') then return .nonNull written else return written) :=
    fun _ => (keeps_accept _).andThen fun _ => yields_ite keeps_pure keeps_pure
  have refused : Keeps (do
      let written ← refuse (α := TypeRef String)
      if ← accept (.punct '!') then return .nonNull written else return written) :=
    (yields_refuse (P := fun _ => True)).andThen marked
  induction room using Nat.strong_induction_on with
  | _ room ih =>
      rw [typeRef.eq_def]
      refine yields_peek.andThen fun t? => ?_
      -- whatever has been read goes on to the mark behind it
      dsimp only
      split
      · exact keeps_skip.andThen fun _ => keeps_pure.andThen marked
      · split
        · exact refused
        · next room =>
            exact keeps_skip.andThen fun _ => (ih room (Nat.lt_succ_self room)).andThen fun _ =>
              (keeps_expect _).andThen fun _ => keeps_pure.andThen marked
      · exact refused

theorem keeps_directive (room : Nat) : Keeps (directive room) := by
  have argument : ∀ room, Keeps (do
      let _ ← name
      expect (.punct ':')
      value false room) :=
    fun room => yields_name.andThen fun _ => (keeps_expect _).andThen fun _ =>
      keeps_value false room
  refine (keeps_expect _).andThen fun _ => yields_name.andThen fun _ =>
    yields_peek.andThen fun _ => yields_ite ?_ keeps_pure
  exact (yields_bracket room fun room => yields_someUntil (argument room)).andThen
    fun _ => keeps_pure

theorem keeps_directives (room : Nat) : Keeps (directives room) :=
  (yields_repeated (keeps_directive room)).andThen fun _ => keeps_pure

theorem keeps_description : Keeps description := by
  refine yields_peek.andThen fun t? => ?_
  split
  · exact yields_ite keeps_skip yields_refuse
  · exact keeps_skip
  · exact keeps_pure

theorem keeps_inputValue (room : Nat) : Keeps (inputValue room) := by
  have marked : Keeps (do let _ ← directives room) :=
    (keeps_directives room).andThen fun _ => keeps_pure
  refine keeps_description.andThen fun _ => yields_name.andThen fun _ =>
    (keeps_expect _).andThen fun _ => (keeps_typeRef room).andThen fun _ =>
    (keeps_accept _).andThen fun _ => yields_ite ?_ marked
  exact (keeps_value true room).andThen fun _ => marked

theorem keeps_arguments (room : Nat) : Keeps (arguments room) := by
  refine yields_peek.andThen fun _ => yields_ite ?_ keeps_pure
  exact (yields_bracket room fun room => yields_someUntil (keeps_inputValue room)).andThen
    fun _ => keeps_pure

theorem yields_field (room : Nat) : Yields (field room) fun f => isName f.name :=
  keeps_description.andThen fun _ => yields_name.bind fun _ named =>
    (keeps_arguments room).andThen fun _ => (keeps_expect _).andThen fun _ =>
    (keeps_typeRef room).andThen fun _ => (keeps_directives room).andThen fun _ =>
    yields_pure named

theorem yields_enumValue (room : Nat) : Yields (enumValue room) fun v => isName v :=
  keeps_description.andThen fun _ => yields_name.bind fun _ named =>
    (keeps_directives room).andThen fun _ => yields_pure named

theorem yields_body (room : Nat) {item : Nat → WordReader α} (h : ∀ room, Yields (item room) P) :
    Yields (body room item) fun as => ∀ a ∈ as, P a := by
  refine yields_peek.andThen fun _ => yields_ite ?_ (yields_pure (List.forall_mem_nil P))
  exact yields_bracket room fun room => yields_someUntil (h room)

theorem keeps_separated (separator : Char) {item : WordReader Unit} (h : Keeps item) :
    Keeps (separated separator item) := by
  have more : Keeps (do
      expect (.punct separator)
      item) := (keeps_expect _).andThen fun _ => h
  exact (keeps_accept _).andThen fun _ => h.andThen fun _ =>
    (yields_repeated more).andThen fun _ => keeps_pure

theorem keeps_implements : Keeps implements := by
  refine (keeps_accept _).andThen fun _ => yields_ite ?_ keeps_pure
  exact (keeps_separated '&' (yields_name.andThen fun _ => keeps_pure)).andThen fun _ => keeps_pure

theorem keeps_members : Keeps members := by
  refine (keeps_accept _).andThen fun _ => yields_ite ?_ keeps_pure
  exact (keeps_separated '|' (yields_name.andThen fun _ => keeps_pure)).andThen fun _ => keeps_pure

end Grammar

/-- The names of the fields or of the values that a definition lists. -/
def TypeDefinition.members : TypeDefinition → List String
  | .object _ fields => fields.map Field.name
  | .enum _ values => values
  | _ => []

/-- The type and what it lists have identifiers for names. -/
structure TypeDefinition.Named (t : TypeDefinition) : Prop where
  name : isName t.name
  members : ∀ m ∈ t.members, isName m

/-- A definition or extension of a type is named. -/
def Definition.Named : Definition → Prop
  | .type t => t.Named
  | .extend t => t.Named
  | _ => True

namespace Grammar

theorem named_plain {t : TypeDefinition} (named : isName t.name) (plain : t.members = []) :
    t.Named := by
  refine ⟨named, ?_⟩
  rw [plain]
  exact List.forall_mem_nil _

theorem yields_typeDefinition (room : Nat) :
    Yields (typeDefinition room) fun t => t.1.Named := by
  refine yields_peek.andThen fun t? => ?_
  split
  · exact keeps_skip.andThen fun _ => yields_name.bind fun n named =>
      (keeps_directives room).andThen fun _ => yields_pure (named_plain named rfl)
  · refine keeps_skip.andThen fun _ => yields_name.bind fun n named =>
      keeps_implements.andThen fun _ => (keeps_directives room).andThen fun _ =>
      (yields_body room yields_field).bind fun fields each => yields_pure ⟨named, ?_⟩
    exact List.forall_mem_map.2 each
  · exact keeps_skip.andThen fun _ => yields_name.bind fun n named =>
      keeps_implements.andThen fun _ => (keeps_directives room).andThen fun _ =>
      (yields_body room yields_field).andThen fun _ => yields_pure (named_plain named rfl)
  · exact keeps_skip.andThen fun _ => yields_name.bind fun n named =>
      (keeps_directives room).andThen fun _ => keeps_members.andThen fun _ =>
      yields_pure (named_plain named rfl)
  · exact keeps_skip.andThen fun _ => yields_name.bind fun n named =>
      (keeps_directives room).andThen fun _ =>
      (yields_body room yields_enumValue).bind fun values each => yields_pure ⟨named, each⟩
  · exact keeps_skip.andThen fun _ => yields_name.bind fun n named =>
      (keeps_directives room).andThen fun _ => (yields_body room keeps_inputValue).andThen
      fun _ => yields_pure (named_plain named rfl)
  · exact yields_refuse

theorem keeps_directiveLocation : Keeps directiveLocation := by
  refine yields_peek.andThen fun t? => ?_
  split
  · exact yields_ite keeps_skip yields_refuse
  · exact yields_refuse

theorem yields_directiveDefinition (room : Nat) :
    Yields (directiveDefinition room) Definition.Named := by
  have locations := keeps_separated '|' keeps_directiveLocation
  refine (keeps_expect _).andThen fun _ => (keeps_expect _).andThen fun _ =>
    yields_name.andThen fun n => (keeps_arguments room).andThen fun _ =>
    (keeps_accept _).andThen fun _ => (keeps_expect _).andThen fun _ =>
    yields_peek.andThen fun t? => ?_
  split
  · exact locations.andThen fun _ => yields_pure trivial
  · exact locations.andThen fun _ => yields_pure trivial
  · exact yields_pure trivial

theorem yields_schemaDefinition (room : Nat) :
    Yields (schemaDefinition room) Definition.Named := by
  have operation : Keeps operation :=
    yields_name.andThen fun _ => (keeps_expect _).andThen fun _ =>
      yields_name.andThen fun _ => keeps_pure
  refine keeps_place.andThen fun _ => (keeps_expect _).andThen fun _ =>
    (keeps_directives room).andThen fun _ =>
    (yields_bracket room fun _ => yields_itemsUntil operation).andThen fun operations => ?_
  exact yields_ite (yields_pure trivial) (yields_fail _)

theorem yields_extension (room : Nat) : Yields (extension room) Definition.Named :=
  (keeps_expect _).andThen fun _ => keeps_place.andThen fun _ =>
    (yields_typeDefinition room).bind fun _ named =>
    yields_ite (yields_pure named) (yields_fail _)

theorem yields_definition (room : Nat) : Yields (definition room) Definition.Named := by
  refine yields_peek.andThen fun t? => ?_
  split
  · exact yields_schemaDefinition room
  · exact yields_extension room
  · refine keeps_description.andThen fun _ => yields_peek.andThen fun t? => ?_
    split
    · exact yields_directiveDefinition room
    · exact (yields_typeDefinition room).bind fun _ named => yields_pure named

theorem yields_definitions : Yields definitions fun d => ∀ part ∈ d, part.Named :=
  (yields_definition _).bind fun _ first =>
    (yields_repeated (yields_definition _)).bind fun _ others =>
    yields_pure (List.forall_mem_cons.2 ⟨first, others⟩)

end Grammar

/-! ## Documents -/

theorem Document.named_ofString {text : String} {d : Document}
    (h : Document.ofString text = .ok d) : ∀ part ∈ d, part.Named := by
  simp only [Document.ofString] at h
  split at h
  · cases h
  · next d' c done =>
      have named := (Grammar.yields_definitions _ c d' (named_scan .start text.toList) done).1
      split at h
      · cases h
        exact named
      · cases h

theorem named_types {d : Document} (h : ∀ part ∈ d, part.Named) : ∀ t ∈ d.types, t.Named := by
  intro t inside
  obtain ⟨part, there, same⟩ := List.mem_filterMap.1 inside
  cases part with
  | type t' =>
      cases same
      exact h _ there
  | _ => cases same

theorem named_extensions {d : Document} (h : ∀ part ∈ d, part.Named) :
    ∀ t ∈ d.extensions, t.Named := by
  intro t inside
  obtain ⟨part, there, same⟩ := List.mem_filterMap.1 inside
  cases part with
  | extend t' =>
      cases same
      exact h _ there
  | _ => cases same

/-! ## Graphs -/

namespace TypeDefinition

theorem members_ofNode (nameOf : TypeId → String) (node : TypeNode) :
    (ofNode nameOf node).members = node.members := by
  cases node with
  | object o => exact List.map_map
  | _ => rfl

theorem Named.fieldsOf {x : TypeDefinition} (h : x.Named) (n : String) :
    ∀ field ∈ x.fieldsOf n, isName field.name := by
  cases x with
  | object m fields =>
      rw [TypeDefinition.fieldsOf]
      split
      · exact fun field inside => h.members _ (List.mem_map_of_mem inside)
      · exact List.forall_mem_nil _
  | _ => exact List.forall_mem_nil _

theorem Named.valuesOf {x : TypeDefinition} (h : x.Named) (n : String) :
    ∀ v ∈ x.valuesOf n, isName v := by
  cases x with
  | enum m values =>
      rw [TypeDefinition.valuesOf]
      split
      · exact h.members
      · exact List.forall_mem_nil _
  | _ => exact List.forall_mem_nil _

/-- What extensions add is named as they are. -/
theorem Named.merge {t : TypeDefinition} {added : List TypeDefinition} (h : t.Named)
    (each : ∀ x ∈ added, x.Named) : (merge added t).Named := by
  cases t with
  | object n fields =>
      refine ⟨h.name, ?_⟩
      rw [TypeDefinition.merge, TypeDefinition.members, List.map_append, List.forall_mem_append]
      refine ⟨h.members, List.forall_mem_map.2 fun field inside => ?_⟩
      obtain ⟨x, there, gives⟩ := List.mem_flatMap.1 inside
      exact (each x there).fieldsOf n field gives
  | enum n values =>
      refine ⟨h.name, ?_⟩
      rw [TypeDefinition.merge, TypeDefinition.members, List.forall_mem_append]
      refine ⟨h.members, fun v inside => ?_⟩
      obtain ⟨x, there, gives⟩ := List.mem_flatMap.1 inside
      exact (each x there).valuesOf n v gives
  | _ => exact h

theorem named_builtin {n : String} (h : n ∈ ScalarKind.builtinNames) : (scalar n).Named := by
  have each : ∀ n ∈ ScalarKind.builtinNames, isName n := by decide
  exact ⟨each n h, List.forall_mem_nil _⟩

end TypeDefinition

/-- The schema of a document whose parts are named is well named. -/
theorem Document.wellNamed {d : Document} {g : Graph} (named : ∀ part ∈ d, part.Named)
    (done : d.graph = .ok g) : g.WellNamed := by
  obtain ⟨-, -, definitions, -⟩ := graph_loaded done
  intro node inside
  have written : (TypeDefinition.ofNode (nameIn g.types) node).Named := by
    have there : TypeDefinition.ofNode (nameIn g.types) node ∈ g.definitions :=
      List.mem_map_of_mem inside
    rw [definitions, List.mem_append, List.mem_map, List.mem_map] at there
    rcases there with ⟨t, declared, same⟩ | ⟨n, implied, same⟩
    · rw [← same]
      exact (named_types named t (List.mem_eraseDups.1 declared)).merge (named_extensions named)
    · rw [← same]
      exact TypeDefinition.named_builtin (mem_implied.1 implied).2.1
  refine ⟨?_, ?_⟩
  · have name := written.name
    rwa [TypeDefinition.name_ofNode] at name
  · have members := written.members
    rwa [TypeDefinition.members_ofNode] at members

end Sdl

namespace Graph

variable {text : String} {g : Graph}

/-- A text that is accepted is that of a document. -/
theorem ofSdl_ok : (ofSdl text).result = .ok g ↔
    ∃ d, Document.ofString text = .ok d ∧ d.graph = .ok g := by
  rw [ofSdl]
  cases read : Document.ofString text with
  | error p =>
      rw [Traced.result_bind]
      simp [Traced.ofExcept, Except.mapError, Except.bind]
  | ok d =>
      rw [Traced.bind_of_ok rfl, Traced.result_bind]
      cases done : d.graph with
      | error e => simp [Traced.ofExcept, Except.bind, done]
      | ok g' => simp [Traced.ofExcept, Except.bind, done, Traced.bind_of_ok, Traced.report]

/-- The schema of a text is well named. -/
theorem wellNamed_of_ofSdl (h : (ofSdl text).result = .ok g) : g.WellNamed := by
  obtain ⟨d, read, done⟩ := ofSdl_ok.1 h
  exact Document.wellNamed (Document.named_ofString read) done

theorem built_of_ofSdl (h : (ofSdl text).result = .ok g) : g.Built := by
  obtain ⟨d, read, done⟩ := ofSdl_ok.1 h
  exact (Document.graph_loaded done).1

end Graph

end Protograph
