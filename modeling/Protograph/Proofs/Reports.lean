import Mathlib.Data.List.Induction

/-! # Reports — a computation that stops at the first of its faults

    A checker goes through its checks in order and ends in the first that
    fails.  What it checks can be said apart from how: as the list of all
    faults, in the order of the checks.  The checker `Reports` the list when
    it ends well exactly if the list is empty, and otherwise in its head.

    Two steps report both their lists, one behind the other
    (`Reports.bind`), and a pass over a list reports what its steps report
    (`Reports.foldlM`), each step told what has been gone through before it
    (`along`).  Of a computation that ends well only its steps are asked
    (`bind_eq_ok`, `map_eq_ok`, `mapError_eq_ok`, `foldlM_ok`). -/

namespace Protograph

/-- Two steps end well exactly when each does. -/
theorem bind_eq_ok {ε α β : Type} {x : Except ε α} {f : α → Except ε β} {b : β} :
    x >>= f = .ok b ↔ ∃ a, x = .ok a ∧ f a = .ok b := by
  constructor
  · intro h
    cases x with
    | error e => cases h
    | ok a => exact ⟨a, rfl, h⟩
  · rintro ⟨a, rfl, h⟩
    exact h

theorem map_eq_ok {ε α β : Type} {x : Except ε α} {f : α → β} {b : β} :
    x.map f = .ok b ↔ ∃ a, x = .ok a ∧ f a = b := by
  constructor
  · intro h
    cases x with
    | error e => cases h
    | ok a =>
        cases h
        exact ⟨a, rfl, rfl⟩
  · rintro ⟨a, rfl, rfl⟩
    rfl

theorem mapError_eq_ok {ε ε' α : Type} {x : Except ε α} {f : ε → ε'} {a : α} :
    x.mapError f = .ok a ↔ x = .ok a := by
  constructor
  · intro h
    cases x with
    | error e => cases h
    | ok b =>
        cases h
        rfl
  · rintro rfl
    rfl

/-- Whether a computation ends well can be decided by running it. -/
theorem exists_ok {ε α : Type} {x : Except ε α} (ends : x.isOk = true) : ∃ a, x = .ok a := by
  cases x with
  | error e => cases ends
  | ok a => exact ⟨a, rfl⟩

/-- What holds of the part of a list that has been gone through holds at its
    end of all of it. -/
theorem foldlM_ok {ε α σ : Type} {f : σ → α → Except ε σ} {P : List α → σ → Prop} {l : List α}
    {s s' : σ} (start : P [] s)
    (step : ∀ {before x s s'}, P before s → f s x = .ok s' → P (before ++ [x]) s')
    (h : l.foldlM f s = .ok s') : P l s' := by
  induction l generalizing P s with
  | nil =>
      cases h
      exact start
  | cons x l ih =>
      rw [List.foldlM_cons, bind_eq_ok] at h
      obtain ⟨next, first, rest⟩ := h
      exact ih (P := fun before s => P (x :: before) s) (step start first) step rest

/-! ## Faults in order -/

variable {ε α β σ : Type} {x : Except ε α} {faults more : List ε}

/-- A computation that ends well if there are no faults, and otherwise in the
    first of them. -/
inductive Reports : Except ε α → List ε → Prop where
  | ok (a : α) : Reports (.ok a) []
  | error (e : ε) (others : List ε) : Reports (.error e) (e :: others)

theorem Reports.error_iff (h : Reports x faults) (e : ε) :
    x = .error e ↔ faults.head? = some e := by
  cases h with
  | ok a => simp
  | error d others => simp

theorem Reports.ok_iff (h : Reports x faults) : (∃ a, x = .ok a) ↔ faults = [] := by
  cases h with
  | ok a => simp
  | error d others => simp

theorem Reports.bind {f : α → Except ε β} (h : Reports x faults)
    (next : ∀ a, x = .ok a → Reports (f a) more) : Reports (x >>= f) (faults ++ more) := by
  cases h with
  | ok a => exact next a rfl
  | error e others => exact .error e (others ++ more)

/-- What `found` gives for each entry of a list, told the entries before it. -/
def along (found : List α → α → List β) : List α → List α → List β
  | _, [] => []
  | before, x :: rest => found before x ++ along found (before ++ [x]) rest

theorem along_append (found : List α → α → List β) (before l m : List α) :
    along found before (l ++ m) = along found before l ++ along found (before ++ l) m := by
  induction l generalizing before with
  | nil => rw [List.nil_append, List.append_nil]; rfl
  | cons x l ih =>
      rw [List.cons_append, along, along, ih, List.append_assoc, List.append_assoc]
      rfl

theorem along_eq_flatMap (found : α → List β) (before l : List α) :
    along (fun _ => found) before l = l.flatMap found := by
  induction l generalizing before with
  | nil => rfl
  | cons x l ih => rw [along, ih, List.flatMap_cons]

/-- Nothing is found when nothing is found at any entry. -/
theorem along_eq_nil_iff {found : List α → α → List β} {l : List α} : along found [] l = []
    ↔ ∀ before x after, l = before ++ x :: after → found before x = [] := by
  constructor
  · rintro nothing before x after rfl
    rw [along_append, List.append_eq_nil_iff, along, List.append_eq_nil_iff] at nothing
    exact nothing.2.1
  · intro nothing
    induction l using List.reverseRecOn with
    | nil => rfl
    | append_singleton l x ih =>
        rw [along_append, along, along, List.nil_append, List.append_nil,
          nothing l x [] rfl, List.append_nil]
        refine ih ?_
        intro before y after split
        refine nothing before y (after ++ [x]) ?_
        rw [split, List.append_assoc, List.cons_append]

/-- A pass over a list reports what its steps report. -/
theorem Reports.foldlM {f : σ → α → Except ε σ} {P : List α → σ → Prop}
    {found : List α → α → List ε} {before l : List α} {s : σ} (start : P before s)
    (step : ∀ {before x s s'}, P before s → f s x = .ok s' → P (before ++ [x]) s')
    (each : ∀ {before x s}, x ∈ l → P before s → Reports (f s x) (found before x)) :
    Reports (l.foldlM f s) (along found before l) := by
  induction l generalizing before s with
  | nil => exact .ok s
  | cons x l ih =>
      rw [List.foldlM_cons, along]
      refine (each List.mem_cons_self start).bind ?_
      intro s' done
      exact ih (step start done) fun member => each (List.mem_cons_of_mem x member)

end Protograph
