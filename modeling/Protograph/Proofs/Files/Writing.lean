import Protograph.Proofs.Reports
import Protograph.Files.Tree

/-! # Writing — what a tree keeps when directories are made and a file is written

    Nothing is ever taken away.  What is there stays there, and a directory
    stays a directory (`FileTree.Keeps`), so a path that could be followed
    leads where it led (`Keeps.follow`).

    * Making directories adds directories in places where nothing was, however
      far it comes before it fails (`FileTree.furnishes_makeDirectories`).
    * Writing changes one file and no other (`FileTree.write_ok`), and the path
      names that file from then on.

    Either way all other files are as they were, by location and by path
    (`Furnishes.file_iff`, `FileTree.Delivers`). -/

namespace Protograph.FileTree

variable {t t' t'' : FileTree} {l m : Location} {p q : Path}

/-! ## Putting an entry -/

theorem lookup_filter_ne {entries : List (Location × FileEntry)} (other : m ≠ l) :
    (entries.filter fun entry => entry.1 != l).lookup m = entries.lookup m := by
  induction entries with
  | nil => rfl
  | cons entry entries ih =>
      obtain ⟨k, e⟩ := entry
      by_cases here : k = l
      · subst here
        rw [List.filter_cons_of_neg (by simp), ih, List.lookup_cons, beq_false_of_ne other]
      · rw [List.filter_cons_of_pos (by simpa using here), List.lookup_cons, List.lookup_cons, ih]

theorem get?_put (below : l ≠ []) (e : FileEntry) (m : Location) :
    (t.put l e).get? m = if m = l then some e else t.get? m := by
  by_cases root : m = []
  · subst root
    rw [if_neg below.symm, get?, get?, if_pos rfl, if_pos rfl]
  · rw [get?, get?, if_neg root, if_neg root]
    show List.lookup m ((l, e) :: t.entries.filter fun entry => entry.1 != l) = _
    by_cases same : m = l
    · rw [if_pos same, same, List.lookup_cons_self]
    · rw [if_neg same, List.lookup_cons, beq_false_of_ne same]
      exact lookup_filter_ne same

theorem append_ne_root (l : Location) (name : String) : l ++ [name] ≠ [] :=
  List.append_ne_nil_of_right_ne_nil l (List.cons_ne_nil name [])

/-! ## What stays -/

/-- What is there stays there, and directories stay directories. -/
structure Keeps (t t' : FileTree) : Prop where
  here : t'.here = t.here
  something : ∀ {l : Location}, t.get? l ≠ none → t'.get? l ≠ none
  directory : ∀ {l : Location}, t.get? l = some .directory → t'.get? l = some .directory

/-- Segments that could be followed lead to the same place. -/
theorem Keeps.follow (h : t.Keeps t') {segments : List String} (led : t.follow l segments = .ok m) :
    t'.follow l segments = .ok m := by
  induction segments generalizing l with
  | nil => exact led
  | cons segment segments ih =>
      rw [FileTree.follow] at led ⊢
      split at led
      · cases led
      · cases led
      · next inside =>
          rw [h.directory inside]
          dsimp only
          split at led
          · next idle =>
              rw [if_pos idle]
              exact ih led
          · next busy =>
              rw [if_neg busy]
              split at led
              · next up =>
                  rw [if_pos up]
                  exact ih led
              · next down =>
                  rw [if_neg down]
                  split at led
                  · cases led
                  · next fits =>
                      rw [if_neg fits]
                      split at led
                      · cases led
                      · next e there =>
                          have still := h.something (l := l ++ [segment]) (by simp [there])
                          split
                          · next gone => exact absurd gone still
                          · exact ih led

theorem Keeps.start_eq (h : t.Keeps t') (p : Path) : t'.start p = t.start p := by
  rw [start, start, h.here]

theorem locate_ok : t.locate p = .ok l ↔
    checkPath p = .ok () ∧ t.follow (t.start p) p.segments = .ok l := by
  rw [locate, bind_eq_ok]
  constructor
  · rintro ⟨⟨⟩, checked, led⟩
    exact ⟨checked, led⟩
  · rintro ⟨checked, led⟩
    exact ⟨(), checked, led⟩

theorem Keeps.locate (h : t.Keeps t') (led : t.locate p = .ok l) : t'.locate p = .ok l := by
  rw [locate_ok] at led ⊢
  rw [h.start_eq]
  exact ⟨led.1, h.follow led.2⟩

theorem read_ok {content : ByteArray} : t.read p = .ok content ↔
    ∃ l, t.locate p = .ok l ∧ t.get? l = some (.file content) := by
  rw [read, bind_eq_ok]
  constructor
  · rintro ⟨l, led, h⟩
    refine ⟨l, led, ?_⟩
    split at h
    · next there =>
        cases h
        exact there
    · cases h
    · cases h
  · rintro ⟨l, led, there⟩
    refine ⟨l, led, ?_⟩
    rw [there]

/-- The bytes of a text are the bytes of that text. -/
theorem decode_toUTF8 (text : String) : decode text.toUTF8 = .ok text := by
  have valid : String.fromUTF8? text.toUTF8 = some text := by
    rw [String.fromUTF8?, dif_pos (by simpa using text.isValidUTF8)]
    rfl
  rw [decode, valid]

theorem readText_of_read {text : String} (held : t.read p = .ok text.toUTF8) :
    t.readText p = .ok text := by
  rw [readText, held]
  exact decode_toUTF8 text

/-! ## Making directories -/

/-- Some directories are new, in places where nothing was, and that is all. -/
structure Furnishes (t t' : FileTree) : Prop where
  here : t'.here = t.here
  kept : ∀ {l : Location} {e : FileEntry}, t.get? l = some e → t'.get? l = some e
  new : ∀ {l : Location} {e : FileEntry}, t'.get? l = some e →
    t.get? l = some e ∨ t.get? l = none ∧ e = .directory

theorem furnishes_refl (t : FileTree) : t.Furnishes t := ⟨rfl, id, Or.inl⟩

theorem Furnishes.trans (h : t.Furnishes t') (h' : t'.Furnishes t'') : t.Furnishes t'' where
  here := h'.here.trans h.here
  kept there := h'.kept (h.kept there)
  new := by
    intro l e there
    rcases h'.new there with before | ⟨free, rfl⟩
    · exact h.new before
    · cases at_l : t.get? l with
      | none => exact Or.inr ⟨rfl, rfl⟩
      | some e =>
          rw [h.kept at_l] at free
          cases free

theorem Furnishes.keeps (h : t.Furnishes t') : t.Keeps t' where
  here := h.here
  something := by
    intro l there
    obtain ⟨e, there⟩ := Option.ne_none_iff_exists'.1 there
    rw [h.kept there]
    exact Option.some_ne_none e
  directory := h.kept

/-- Files are neither changed nor made. -/
theorem Furnishes.file_iff (h : t.Furnishes t') (l : Location) (content : ByteArray) :
    t'.get? l = some (.file content) ↔ t.get? l = some (.file content) := by
  constructor
  · intro there
    rcases h.new there with before | ⟨-, made⟩
    · exact before
    · cases made
  · exact h.kept

theorem Furnishes.read {content : ByteArray} (h : t.Furnishes t') (held : t.read p = .ok content) :
    t'.read p = .ok content := by
  rw [read_ok] at held ⊢
  obtain ⟨l, led, there⟩ := held
  exact ⟨l, h.keeps.locate led, h.kept there⟩

theorem furnishes_put (below : l ≠ []) (free : t.get? l = none) :
    t.Furnishes (t.put l .directory) where
  here := rfl
  kept := by
    intro m e there
    have other : m ≠ l := by
      rintro rfl
      rw [free] at there
      cases there
    rw [get?_put below, if_neg other]
    exact there
  new := by
    intro m e there
    rw [get?_put below] at there
    split at there
    · next same =>
        subst same
        cases there
        exact Or.inr ⟨free, rfl⟩
    · exact Or.inl there

theorem furnishes_makeDirectory (h : t.makeDirectory p = .ok t') : t.Furnishes t' := by
  rw [makeDirectory, bind_eq_ok] at h
  obtain ⟨⟨l, name, slash⟩, -, h⟩ := h
  dsimp only at h
  split at h
  · cases h
  · next free =>
      split at h
      · cases h
      · cases h
        rw [Bool.or_eq_true, not_or, Option.not_isSome_iff_eq_none] at free
        exact furnishes_put (append_ne_root l name) free.2

/-- However far it comes, only directories are new. -/
theorem furnishes_makeNested (t : FileTree) (paths : List Path) :
    t.Furnishes (t.makeNested paths).1 := by
  induction paths with
  | nil => exact furnishes_refl t
  | cons p above ih =>
      rw [makeNested]
      split
      · exact furnishes_refl t
      · split
        · next made => exact furnishes_makeDirectory made
        · -- the directory above was missing, so the ones further out come first
          split
          · next u e outer =>
              rw [outer] at ih
              exact ih
          · next u outer =>
              rw [outer] at ih
              split
              · next made => exact ih.trans (furnishes_makeDirectory made)
              · exact ih
        · exact furnishes_refl t

theorem furnishes_makeDirectories (t : FileTree) (p : Path) :
    t.Furnishes (t.makeDirectories p).1 :=
  furnishes_makeNested t p.ancestors

/-! ## Writing a file -/

theorem follow_append (t : FileTree) (l : Location) (first more : List String) :
    t.follow l (first ++ more) = t.follow l first >>= fun m => t.follow m more := by
  induction first generalizing l with
  | nil => rfl
  | cons segment first ih =>
      rw [List.cons_append, follow, follow]
      simp only [ih]
      split
      · rfl
      · rfl
      · split
        · rfl
        · split
          · rfl
          · split
            · rfl
            · split
              · rfl
              · rfl

/-- A path without a slash at its end ends in its last segment. -/
theorem locateLast_ok {name : String} (h : t.locateLast p = .ok (l, name, false)) :
    checkPath p = .ok () ∧ t.get? l = some .directory ∧ name ≠ "" ∧
      ∃ before, p.segments = before ++ [name] ∧ t.follow (t.start p) before = .ok l := by
  rw [locateLast, bind_eq_ok] at h
  obtain ⟨⟨⟩, checked, h⟩ := h
  refine ⟨checked, ?_⟩
  generalize backwards : p.segments.reverse = segments at h
  have forwards : p.segments = segments.reverse := by
    rw [← backwards, List.reverse_reverse]
  dsimp only at h
  split at h
  · cases h
  · next last before ending =>
      rw [bind_eq_ok] at h
      obtain ⟨k, led, h⟩ := h
      split at h
      · next inside =>
          cases segments with
          | nil => cases ending
          | cons s rest =>
              -- no slash at the end, so nothing was dropped there
              have filled : s ≠ "" := by
                rintro rfl
                cases h
              rw [List.dropWhile_cons_of_neg (by simpa using filled)] at ending
              cases ending
              obtain ⟨rfl, named⟩ := Prod.mk.inj (Except.ok.inj h)
              obtain ⟨rfl, -⟩ := Prod.mk.inj named
              refine ⟨inside, filled, before.reverse, ?_, led⟩
              rw [forwards, List.reverse_cons]
      · cases h
      · cases h

/-- An entry is found in its directory by its name. -/
theorem follow_name {name : String} (inside : t.get? l = some .directory) (filled : name ≠ "")
    (dotless : isDots name = false) (fits : isTooLong name = false)
    (there : t.get? (l ++ [name]) ≠ none) : t.follow l [name] = .ok (l ++ [name]) := by
  rw [isDots, Bool.or_eq_false_iff, beq_eq_false_iff_ne, beq_eq_false_iff_ne] at dotless
  have busy : Path.isIdle name = false := by
    rw [Path.isIdle, Bool.or_eq_false_iff, beq_eq_false_iff_ne, beq_eq_false_iff_ne]
    exact ⟨filled, dotless.1⟩
  obtain ⟨e, found⟩ := Option.ne_none_iff_exists'.1 there
  rw [follow, inside]
  dsimp only
  rw [if_neg (by simp [busy]), if_neg dotless.2, if_neg (by simp [fits]), found]
  rfl

theorem keeps_put_file (content : ByteArray) (below : l ≠ []) (room : t.get? l ≠ some .directory) :
    t.Keeps (t.put l (.file content)) where
  here := rfl
  something := by
    intro m there
    rw [get?_put below]
    split
    · exact Option.some_ne_none _
    · exact there
  directory := by
    intro m there
    have other : m ≠ l := by
      rintro rfl
      exact room there
    rw [get?_put below, if_neg other]
    exact there

/-- A file that is written stands where its path leads from then on. -/
theorem write_ok {content : ByteArray} (h : t.write p content = .ok t') :
    ∃ l, l ≠ [] ∧ t.get? l ≠ some .directory ∧ t' = t.put l (.file content)
      ∧ t'.locate p = .ok l := by
  rw [write, bind_eq_ok] at h
  obtain ⟨⟨l, name, slash⟩, last, h⟩ := h
  dsimp only at h
  split at h
  · cases h
  · next plain =>
      split at h
      · cases h
      · next fits =>
          cases h
          simp only [Bool.or_eq_true, not_or, Bool.not_eq_true] at plain fits
          obtain ⟨⟨rfl, dotless⟩, vacant⟩ := plain
          have below := append_ne_root l name
          have room : t.get? (l ++ [name]) ≠ some .directory := by
            intro there
            rw [there] at vacant
            cases vacant
          have keeps := keeps_put_file content below room
          obtain ⟨checked, inside, filled, before, segments, led⟩ := locateLast_ok last
          refine ⟨l ++ [name], below, room, rfl, ?_⟩
          rw [locate_ok, keeps.start_eq, segments, follow_append, keeps.follow led]
          refine ⟨checked, follow_name (keeps.directory inside) filled dotless fits ?_⟩
          rw [get?_put below, if_pos rfl]
          exact Option.some_ne_none _

/-- One file holds what was to be written, the path leads to it, and no other file has been
    changed or made. -/
structure Delivers (t t' : FileTree) (p : Path) (content : ByteArray) (l : Location) : Prop where
  located : t'.locate p = .ok l
  held : t'.read p = .ok content
  files : ∀ (m : Location) (other : ByteArray), m ≠ l →
    (t'.get? m = some (.file other) ↔ t.get? m = some (.file other))
  paths : ∀ {q : Path} {m : Location} {other : ByteArray}, t.locate q = .ok m → m ≠ l →
    t.read q = .ok other → t'.read q = .ok other
  directories : ∀ {m : Location}, t.get? m = some .directory → t'.get? m = some .directory

theorem delivers_write {content : ByteArray} (h : t.write p content = .ok t') :
    ∃ l, t.Delivers t' p content l := by
  obtain ⟨l, below, room, rfl, led⟩ := write_ok h
  have keeps := keeps_put_file content below room
  have elsewhere : ∀ {m : Location}, m ≠ l → (t.put l (.file content)).get? m = t.get? m := by
    intro m other
    rw [get?_put below, if_neg other]
  refine ⟨l, led, ?_, ?_, ?_, keeps.directory⟩
  · refine read_ok.2 ⟨l, led, ?_⟩
    rw [get?_put below, if_pos rfl]
  · intro m other differ
    rw [elsewhere differ]
  · intro q m other found differ held
    obtain ⟨k, found', there⟩ := read_ok.1 held
    obtain rfl : m = k := Except.ok.inj (found.symm.trans found')
    exact read_ok.2 ⟨m, keeps.locate found, (elsewhere differ).trans there⟩

/-- Directories may be made first. -/
theorem Furnishes.delivers {content : ByteArray} (h : t.Furnishes t')
    (delivered : t'.Delivers t'' p content l) : t.Delivers t'' p content l where
  located := delivered.located
  held := delivered.held
  files := by
    intro m other differ
    rw [delivered.files m other differ, h.file_iff]
  paths := by
    intro q m other found differ held
    exact delivered.paths (h.keeps.locate found) differ (h.read held)
  directories := fun there => delivered.directories (h.kept there)

end Protograph.FileTree
