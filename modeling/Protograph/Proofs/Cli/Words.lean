import Mathlib.Data.List.Infix
import Protograph.Cli.Arguments
import Protograph.Proofs.Reports

/-! # Words — what each argument of a command line is

    What a command line asks for can be read off its words, with no reader in
    between.  Words behind `--` are no options.  In front of it an option is
    given what stands behind its name and an equals sign, or the word behind
    its name (`Gives`); a flag is a word of its own (`Shows`); and the schema
    is a word that is neither an option nor the value of one (`Places`).

    The reader takes each word in front of `--` for one of five kinds.  What it
    does at a word is told by the kind (`meet_eq`), a word that is of none is
    refused (`spelled_of_meet`), and none is of two (`spells_unique`): at the
    start of a line each kind leads somewhere else. -/

namespace Protograph.Cli

/-! ## Words of a line -/

/-- The names of an option that takes a value. -/
def ValueOption.names : ValueOption → List String
  | .out => ["--out", "-o"]
  | .config => ["--config"]
  | .package => ["--package"]
  | .javaPackage => ["--java-package"]
  | .jsNamespace => ["--js-namespace"]
  | .jspbImport => ["--jspb-import"]
  | .messageIdPrefix => ["--message-id-prefix"]

/-- A word that holds the name of an option and a value for it.  Behind a single letter the equals
    sign can be left out. -/
inductive Attaches : String → String → String → Prop where
  | equals (name value : String) : Attaches name value (name ++ "=" ++ value)
  | letter {value : String} (filled : value ≠ "") (bare : ∀ rest, value ≠ "=" ++ rest) :
      Attaches "-o" value ("-o" ++ value)

/-- The option of a name is given a value in front of `--`. -/
inductive Gives (line : List String) (name value : String) : Prop where
  | attached {front : List String} {word : String} (there : front ++ [word] <+: line)
      (options : "--" ∉ front) (attaches : Attaches name value word)
  | separate {front : List String} (there : front ++ [name, value] <+: line)
      (options : "--" ∉ front)

/-- A word stands in front of `--`. -/
def Shows (line : List String) (word : String) : Prop :=
  ∃ front, front ++ [word] <+: line ∧ "--" ∉ front

/-- A word that does not begin as an option does. -/
def Loose (word : String) : Prop := word = "-" ∨ ∀ rest, word ≠ "-" ++ rest

/-- A word that is neither an option nor the value of one. -/
def Places (line : List String) (word : String) : Prop :=
  ∃ front, front ++ [word] <+: line ∧
    ("--" ∈ front
      ∨ Loose word ∧ ∀ o : ValueOption, ∀ name ∈ o.names, front.getLast? ≠ some name)

/-! ## Kinds of words -/

/-- What a word in front of `--` is. -/
inductive WordKind where
  | dashes
  | opens (o : ValueOption)
  | brings (o : ValueOption) (value : String)
  | listing
  | loose

/-- How the words of each kind are written. -/
inductive WordKind.Spells : WordKind → String → Prop where
  | dashes : Spells .dashes "--"
  | opens {o : ValueOption} {name : String} (known : name ∈ o.names) : Spells (.opens o) name
  | brings {o : ValueOption} {name value word : String} (known : name ∈ o.names)
      (attaches : Attaches name value word) : Spells (.brings o value) word
  | listing : Spells .listing "--print-types"
  | loose {word : String} (loose : Loose word) : Spells .loose word

namespace ValueOption

variable {o : ValueOption}

theorem mem_names {name : String} :
    name ∈ o.names ↔ name = "--" ++ o.long ∨ o = .out ∧ name = "-o" := by
  cases o <;> simp [names, long]

theorem find?_long : all.find? (·.long == o.long) = some o := by
  cases o <;> rfl

theorem long_ne_nil : o.long.toList ≠ [] := by
  cases o <;> decide

theorem long_inj {o' : ValueOption} (h : o.long = o'.long) : o = o' := by
  have found := find?_long (o := o)
  rw [h, find?_long] at found
  exact (Option.some.inj found).symm

end ValueOption

namespace Progress

open ValueOption

variable {s t : Progress} {o : ValueOption} {w : WordKind} {name value word : String}

/-- What is done at a word of some kind. -/
def act (s : Progress) (word : String) : WordKind → Except ArgumentError Progress
  | .dashes => .ok { s with plain := true }
  | .opens o => s.meetOption o none
  | .brings o value => s.meetOption o (some value)
  | .listing => s.meetFlag .printTypes
  | .loose =>
      match s.pending with
      | some (.option o none) => .ok { s with pending := some (.option o (some word)) }
      | _ => s.meetPlain word

theorem splitAtEquals_long : splitAtEquals o.long.toList = (o.long, none) := by
  cases o <;> decide

theorem splitAtEquals_append (value : List Char) :
    splitAtEquals (o.long.toList ++ '=' :: value) = (o.long, some (String.ofList value)) := by
  have bare : ∀ c ∈ o.long.toList, (c != '=') = true := by
    rw [← List.all_eq_true]
    cases o <;> rfl
  rw [splitAtEquals, List.takeWhile_append_of_pos bare, List.dropWhile_append_of_pos bare]
  simp

/-- An option in front of `--` is met under its long name. -/
theorem meet_long (options : s.plain = false) {rest : List Char} {attached : Option String}
    (split : splitAtEquals rest = (o.long, attached)) (filled : rest ≠ [])
    (spelled : word.toList = '-' :: '-' :: rest) : s.meet word = s.meetOption o attached := by
  have behind : s.meet word = s.meetLong rest := by
    rw [meet, options, spelled]
    cases rest with
    | nil => exact absurd rfl filled
    | cons c rest => rfl
  rw [behind, meetLong, split]
  simp only [find?_long]

theorem meet_opens (options : s.plain = false) (known : name ∈ o.names) :
    s.meet name = s.meetOption o none := by
  rcases mem_names.1 known with rfl | ⟨rfl, rfl⟩
  · exact meet_long options splitAtEquals_long long_ne_nil (by simp)
  · rw [meet, options]
    rfl

theorem meet_brings (options : s.plain = false) (known : name ∈ o.names)
    (attaches : Attaches name value word) : s.meet word = s.meetOption o (some value) := by
  cases attaches with
  | equals =>
      rcases mem_names.1 known with rfl | ⟨rfl, rfl⟩
      · have split := splitAtEquals_append (o := o) value.toList
        rw [String.ofList_toList] at split
        exact meet_long options split (by simp) (by simp)
      · have spelled : ("-o" ++ "=" ++ value).toList = '-' :: 'o' :: '=' :: value.toList := by simp
        rw [meet, options, spelled]
        show s.meetOption .out (some (String.ofList value.toList)) = _
        rw [String.ofList_toList]
  | letter filled bare =>
      rcases mem_names.1 known with wrong | ⟨rfl, -⟩
      · exact absurd wrong (by cases o <;> decide)
      · have spelled : ("-o" ++ value).toList = '-' :: 'o' :: value.toList := by simp
        have more : value.toList ≠ [] := fun empty => filled (String.toList_eq_nil_iff.1 empty)
        have equals : ∀ rest, value.toList ≠ '=' :: rest := by
          intro rest same
          refine bare (String.ofList rest) ?_
          rw [← String.toList_inj, same]
          simp
        rw [meet, options, spelled]
        show s.meetShort ('o' :: value.toList) = _
        rw [meetShort, String.ofList_toList]
        · exact more
        · exact equals

theorem meet_listing (options : s.plain = false) :
    s.meet "--print-types" = s.meetFlag .printTypes := by
  rw [meet, options]
  rfl

theorem meet_loose (options : s.plain = false) (loose : Loose word) :
    s.meet word = s.act word .loose := by
  have inFront : ¬ s.plain = true := by
    rw [options]
    exact Bool.false_ne_true
  rw [meet, if_neg inFront]
  rcases loose with rfl | loose
  · rfl
  · have dash : ∀ cs, word.toList ≠ '-' :: cs := by
      intro cs spelled
      refine loose (String.ofList cs) ?_
      rw [← String.toList_inj, spelled]
      simp
    split
    · next spelled => exact absurd spelled (dash _)
    · next spelled => exact absurd spelled (dash _)
    · next spelled => exact absurd spelled (dash _)
    · rfl

/-- In front of `--` each word is dealt with by its kind. -/
theorem meet_eq (options : s.plain = false) (h : w.Spells word) : s.meet word = s.act word w := by
  cases h with
  | dashes =>
      rw [meet, options]
      rfl
  | opens known => exact meet_opens options known
  | brings known attaches => exact meet_brings options known attaches
  | listing => exact meet_listing options
  | loose loose => exact meet_loose options loose

/-- Of the flags only one lets the line go on. -/
theorem meetFlag_ok {f : Flag} (h : s.meetFlag f = .ok t) :
    f = .printTypes ∧ ∃ r : Progress, s.settle = .ok r ∧ t = { r with printTypes := true } := by
  obtain ⟨r, settled, flagged⟩ := bind_eq_ok.1 h
  cases f with
  | printTypes =>
      dsimp only at flagged
      split at flagged
      · cases flagged
      · cases flagged
        exact ⟨rfl, r, settled, rfl⟩
  | help => cases flagged
  | version => cases flagged

/-- What is split at the equals sign is put together with it. -/
theorem splitAtEquals_cases (rest : List Char) :
    ∃ name : String, splitAtEquals rest = (name, none) ∧ rest = name.toList
      ∨ ∃ value : String, splitAtEquals rest = (name, some value)
        ∧ rest = name.toList ++ '=' :: value.toList := by
  have whole := List.takeWhile_append_dropWhile (p := (· != '=')) (l := rest)
  refine ⟨String.ofList (rest.takeWhile (· != '=')), ?_⟩
  rw [splitAtEquals]
  cases behind : rest.dropWhile (· != '=') with
  | nil =>
      rw [behind, List.append_nil] at whole
      exact Or.inl ⟨rfl, by rw [String.toList_ofList, whole]⟩
  | cons c value =>
      have stop := List.head?_dropWhile_not (· != '=') rest
      rw [behind] at stop whole
      obtain rfl : c = '=' := by simpa using stop
      exact Or.inr ⟨String.ofList value, rfl, by simp [whole]⟩

/-- A word behind two dashes that is not refused. -/
theorem spelled_of_meetLong {rest : List Char} (h : s.meetLong rest = .ok t)
    (spelled : word.toList = '-' :: '-' :: rest) : ∃ w : WordKind, w.Spells word := by
  obtain ⟨name, ⟨split, whole⟩ | ⟨value, split, whole⟩⟩ := splitAtEquals_cases rest
  · obtain rfl : word = "--" ++ name := by
      rw [← String.toList_inj, spelled, whole]
      simp
    rw [meetLong, split] at h
    dsimp only at h
    split at h
    · next o found =>
        obtain rfl : o.long = name := by simpa using List.find?_some found
        exact ⟨.opens o, .opens (mem_names.2 (Or.inl rfl))⟩
    · next f _ found =>
        obtain rfl : f.long = name := by simpa using List.find?_some found
        obtain ⟨rfl, -⟩ := meetFlag_ok h
        exact ⟨.listing, .listing⟩
    · cases h
  · obtain rfl : word = "--" ++ name ++ "=" ++ value := by
      rw [← String.toList_inj, spelled, whole]
      simp
    rw [meetLong, split] at h
    dsimp only at h
    split at h
    · next o found =>
        obtain rfl : o.long = name := by simpa using List.find?_some found
        exact ⟨.brings o value, .brings (mem_names.2 (Or.inl rfl)) (.equals _ _)⟩
    · cases h
    · cases h

/-- A word behind a single dash that is not refused. -/
theorem spelled_of_meetShort {rest : List Char} (h : s.meetShort rest = .ok t)
    (filled : rest ≠ []) (spelled : word.toList = '-' :: rest) : ∃ w : WordKind, w.Spells word := by
  have known : "-o" ∈ ValueOption.out.names := by decide
  rw [meetShort.eq_def] at h
  split at h
  · exact absurd rfl filled
  · cases (meetFlag_ok h).1
  · cases (meetFlag_ok h).1
  · obtain rfl : word = "-o" := String.toList_inj.1 (by rw [spelled]; rfl)
    exact ⟨.opens .out, .opens known⟩
  · next value =>
      obtain rfl : word = "-o" ++ "=" ++ String.ofList value :=
        String.toList_inj.1 (by rw [spelled]; simp)
      exact ⟨.brings .out _, .brings known (.equals _ _)⟩
  · next value more bare =>
      obtain rfl : word = "-o" ++ String.ofList value := String.toList_inj.1 (by rw [spelled]; simp)
      refine ⟨.brings .out _, .brings known (.letter ?_ ?_)⟩
      · intro empty
        exact more (by simpa using empty)
      · intro after same
        refine bare after.toList ?_
        rw [← String.toList_ofList (l := value), same]
        simp
  · cases h

/-- The words in front of `--` that are not refused. -/
theorem spelled_of_meet (options : s.plain = false) (h : s.meet word = .ok t) :
    ∃ w : WordKind, w.Spells word := by
  rw [meet, options, if_neg Bool.false_ne_true] at h
  split at h
  · next spelled =>
      obtain rfl : word = "--" := String.toList_inj.1 (by rw [spelled]; rfl)
      exact ⟨.dashes, .dashes⟩
  · next spelled => exact spelled_of_meetLong h spelled
  · next spelled => exact spelled_of_meetShort h (List.cons_ne_nil _ _) spelled
  · next none more one =>
      refine ⟨.loose, .loose ?_⟩
      by_cases dash : ∃ rest, word = "-" ++ rest
      · obtain ⟨rest, rfl⟩ := dash
        cases cs : rest.toList with
        | nil =>
            obtain rfl := String.toList_eq_nil_iff.1 cs
            exact Or.inl rfl
        | cons c cs' => exact absurd (by simp [cs]) (one c cs')
      · exact Or.inr fun rest same => dash ⟨rest, same⟩

/-- What each kind of word does at the start of a line. -/
theorem act_start (word : String) (w : WordKind) :
    act {} word w =
      match w with
      | .dashes => .ok { plain := true }
      | .opens o => .ok { pending := some (.option o none) }
      | .brings o value =>
          if o.isPath && value == "" then .error (.badValue o.long)
          else .ok { values := [(o, value)] }
      | .listing => .ok { printTypes := true }
      | .loose => .ok { pending := some (.schema word), schemaMet := true } := by
  cases w <;> rfl

theorem act_start_inj {w' : WordKind} (h : act {} word w = act {} word w') : w = w' := by
  rw [act_start, act_start] at h
  cases w with
  | brings o value =>
      cases w' with
      | brings o' value' =>
          dsimp only at h
          split at h
          · next empty =>
              split at h
              · next empty' =>
                  rw [Bool.and_eq_true, beq_iff_eq] at empty empty'
                  rw [empty.2, empty'.2, long_inj (ArgumentError.badValue.inj (Except.error.inj h))]
              · cases h
          · split at h
            · cases h
            · cases h
              rfl
      | _ =>
          dsimp only at h
          split at h
          · cases h
          · cases h
  | _ =>
      cases w' with
      | brings o value =>
          dsimp only at h
          split at h
          · cases h
          · cases h
      | _ => cases h <;> rfl

/-- A word is of one kind: at the start of a line each kind leads somewhere else. -/
theorem spells_unique {w' : WordKind} (h : w.Spells word) (h' : w'.Spells word) : w = w' := by
  have same : act {} word w = act {} word w' := by rw [← meet_eq rfl h, ← meet_eq rfl h']
  exact act_start_inj same

theorem spells_iff (h : w.Spells word) (w' : WordKind) : w'.Spells word ↔ w' = w := by
  constructor
  · exact fun h' => spells_unique h' h
  · rintro rfl
    exact h

end Progress

end Protograph.Cli
