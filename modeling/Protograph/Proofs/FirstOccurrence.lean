import Mathlib.Data.List.Induction
import Mathlib.Data.List.Nodup

/-! # First occurrences — lists read from the left, later copies dropped

    `List.eraseDups` keeps the first copy of every entry.  Built up from the
    left it only ever grows at its end (`eraseDups_concat`), so its entries
    stand in the order in which they first occur (`pairwise_eraseDups`).

    When the list is a row of rows, the first occurrence of an entry has a
    row and a place within that row; comparing positions in the whole list
    is comparing these two, the row first (`lex_of_idxOf_flatMap_lt`).

    A check that goes along a list and stops at the first complaint reports
    what is `First` among the complaints of all places; `exists_first_succ`
    is its recursion step. -/

namespace Protograph

variable {α β : Type} [DecidableEq β]

/-- One more entry at the end counts only when it is new. -/
theorem eraseDups_concat (l : List β) (a : β) :
    (l ++ [a]).eraseDups = if a ∈ l then l.eraseDups else l.eraseDups ++ [a] := by
  rw [List.eraseDups_append]
  by_cases old : a ∈ l
  · simp [List.removeAll, old]
  · simp [List.removeAll, old, List.eraseDups_cons]

theorem eraseDups_concat_of_mem {l : List β} {a : β} (old : a ∈ l) :
    (l ++ [a]).eraseDups = l.eraseDups := by
  rw [eraseDups_concat, if_pos old]

theorem eraseDups_concat_of_not_mem {l : List β} {a : β} (new : a ∉ l) :
    (l ++ [a]).eraseDups = l.eraseDups ++ [a] := by
  rw [eraseDups_concat, if_neg new]

/-- What is left stands in the order of first occurrence. -/
theorem pairwise_eraseDups (l : List β) :
    l.eraseDups.Pairwise fun x y => l.idxOf x < l.idxOf y := by
  induction l using List.reverseRecOn with
  | nil => exact List.Pairwise.nil
  | append_singleton l a ih =>
      -- the positions of the entries of `l` do not change
      have kept : l.eraseDups.Pairwise fun x y => (l ++ [a]).idxOf x < (l ++ [a]).idxOf y := by
        refine ih.imp_of_mem ?_
        intro x y hx hy lt
        rw [List.idxOf_append, if_pos (List.mem_eraseDups.1 hx),
          List.idxOf_append, if_pos (List.mem_eraseDups.1 hy)]
        exact lt
      by_cases old : a ∈ l
      · rw [eraseDups_concat_of_mem old]
        exact kept
      · rw [eraseDups_concat_of_not_mem old]
        refine List.pairwise_append.2 ⟨kept, List.pairwise_singleton _ _, ?_⟩
        intro x hx y hy
        rw [List.mem_singleton] at hy
        subst hy
        have inside : x ∈ l := List.mem_eraseDups.1 hx
        rw [List.idxOf_append, if_pos inside, List.idxOf_append, if_neg old]
        exact Nat.lt_add_left _ (List.idxOf_lt_length_of_mem inside)

theorem nodup_eraseDups (l : List β) : l.eraseDups.Nodup := by
  refine (pairwise_eraseDups l).imp ?_
  rintro x y lt rfl
  exact Nat.lt_irrefl _ lt

theorem eraseDups_of_nodup {l : List β} (nodup : l.Nodup) : l.eraseDups = l := by
  induction l using List.reverseRecOn with
  | nil => rfl
  | append_singleton l a ih =>
      obtain ⟨front, -, apart⟩ := List.nodup_append.1 nodup
      have new : a ∉ l := fun old => apart a old a List.mem_cons_self rfl
      rw [eraseDups_concat_of_not_mem new, ih front]

/-! ## Rows -/

/-- The first of some rows that has an entry. -/
def firstRow (row : α → List β) (rows : List α) (y : β) : Nat :=
  rows.findIdx fun a => (row a).contains y

/-- The place of an entry within the first row that has it. -/
def firstPlace (row : α → List β) (rows : List α) (y : β) : Nat :=
  ((rows[firstRow row rows y]?).elim [] row).idxOf y

variable {row : α → List β} {rows : List α} {a : α} {x y : β}

theorem firstRow_cons_of_mem (h : y ∈ row a) : firstRow row (a :: rows) y = 0 := by
  simp [firstRow, List.findIdx_cons, h]

theorem firstRow_cons_of_not_mem (h : y ∉ row a) :
    firstRow row (a :: rows) y = firstRow row rows y + 1 := by
  simp [firstRow, List.findIdx_cons, h]

theorem firstPlace_cons_of_mem (h : y ∈ row a) :
    firstPlace row (a :: rows) y = (row a).idxOf y := by
  simp [firstPlace, firstRow_cons_of_mem h]

theorem firstPlace_cons_of_not_mem (h : y ∉ row a) :
    firstPlace row (a :: rows) y = firstPlace row rows y := by
  simp [firstPlace, firstRow_cons_of_not_mem h]

/-- The first row lies within a beginning of the rows that has the entry at all. -/
theorem firstRow_le {i : Nat} (at_i : rows[i]? = some a) (h : y ∈ row a) :
    firstRow row rows y ≤ i := by
  obtain ⟨below, rfl⟩ := List.getElem?_eq_some_iff.1 at_i
  refine Nat.not_lt.1 fun lt => ?_
  have none_before := List.not_of_lt_findIdx lt
  simp [h] at none_before

/-- The first row has the entry, if there is such a row. -/
theorem mem_firstRow (inside : firstRow row rows y < rows.length) :
    ∃ a, rows[firstRow row rows y]? = some a ∧ y ∈ row a := by
  refine ⟨rows[firstRow row rows y], List.getElem?_eq_getElem inside, ?_⟩
  exact List.contains_iff_mem.1 (List.findIdx_getElem (w := inside))

/-- Rows behind the first row that has the entry do not matter. -/
theorem firstRow_append {front : List α} (h : ∃ a ∈ front, y ∈ row a) (back : List α) :
    firstRow row (front ++ back) y = firstRow row front y ∧
      firstPlace row (front ++ back) y = firstPlace row front y := by
  induction front with
  | nil =>
      obtain ⟨a, inside, -⟩ := h
      exact nomatch inside
  | cons b front ih =>
      rw [List.cons_append]
      by_cases here : y ∈ row b
      · rw [firstRow_cons_of_mem here, firstRow_cons_of_mem here,
          firstPlace_cons_of_mem here, firstPlace_cons_of_mem here]
        exact ⟨rfl, rfl⟩
      · have later : ∃ a ∈ front, y ∈ row a := by
          obtain ⟨a, inside, has⟩ := h
          rcases List.mem_cons.1 inside with rfl | behind
          · exact absurd has here
          · exact ⟨a, behind, has⟩
        obtain ⟨sameRow, samePlace⟩ := ih later
        rw [firstRow_cons_of_not_mem here, firstRow_cons_of_not_mem here,
          firstPlace_cons_of_not_mem here, firstPlace_cons_of_not_mem here]
        exact ⟨congrArg Nat.succ sameRow, samePlace⟩

/-- An earlier first occurrence has an earlier row, or the same row and an
    earlier place in it. -/
theorem lex_of_idxOf_flatMap_lt (hx : x ∈ rows.flatMap row)
    (lt : (rows.flatMap row).idxOf x < (rows.flatMap row).idxOf y) :
    Prod.Lex (· < ·) (· < ·) (firstRow row rows x, firstPlace row rows x)
      (firstRow row rows y, firstPlace row rows y) := by
  induction rows with
  | nil => exact nomatch hx
  | cons a rows ih =>
      rw [List.flatMap_cons] at hx lt
      rw [List.idxOf_append, List.idxOf_append] at lt
      by_cases hxa : x ∈ row a
      · rw [firstRow_cons_of_mem hxa, firstPlace_cons_of_mem hxa]
        by_cases hya : y ∈ row a
        · rw [if_pos hxa, if_pos hya] at lt
          rw [firstRow_cons_of_mem hya, firstPlace_cons_of_mem hya]
          exact Prod.Lex.right _ lt
        · rw [firstRow_cons_of_not_mem hya]
          exact Prod.Lex.left _ _ (Nat.succ_pos _)
      · by_cases hya : y ∈ row a
        · -- then `y` occurs before all of the later rows, and so before `x`
          rw [if_neg hxa, if_pos hya] at lt
          have := List.idxOf_lt_length_of_mem hya
          omega
        · rw [if_neg hxa, if_neg hya] at lt
          have rest := ih ((List.mem_append.1 hx).resolve_left hxa) (by omega)
          rw [firstRow_cons_of_not_mem hxa, firstRow_cons_of_not_mem hya,
            firstPlace_cons_of_not_mem hxa, firstPlace_cons_of_not_mem hya]
          rcases Prod.lex_def.1 rest with above | ⟨same, before⟩
          · exact Prod.Lex.left _ _ (Nat.succ_lt_succ above)
          · exact Prod.lex_def.2 (Or.inr ⟨congrArg Nat.succ same, before⟩)

/-! ## First places -/

section First

variable {γ : Type} {P : Nat → γ → Prop} {k : Nat} {c : γ}

/-- Of all places, numbered from zero, `k` is the first where `P` holds of
    anything, and `c` is what it holds of there. -/
def First (P : Nat → γ → Prop) (k : Nat) (c : γ) : Prop := P k c ∧ ∀ j < k, ∀ d, ¬ P j d

/-- The first place is the front, or the front is clear and it is the first
    place behind. -/
theorem exists_first_succ :
    (∃ k, First P k c) ↔ P 0 c ∨ (∀ d, ¬ P 0 d) ∧ ∃ k, First (fun j => P (j + 1)) k c := by
  constructor
  · rintro ⟨k, here, before⟩
    cases k with
    | zero => exact Or.inl here
    | succ k =>
        refine Or.inr ⟨before 0 (Nat.succ_pos k), k, here, ?_⟩
        intro j lt
        exact before (j + 1) (Nat.succ_lt_succ lt)
  · rintro (here | ⟨clear, k, behind, before⟩)
    · exact ⟨0, here, fun j lt => absurd lt (Nat.not_lt_zero j)⟩
    · refine ⟨k + 1, behind, ?_⟩
      intro j lt
      cases j with
      | zero => exact clear
      | succ j => exact before j (Nat.lt_of_succ_lt_succ lt)

/-- Where there is any place, there is a first one. -/
theorem exists_first (h : P k c) : ∃ k c, First P k c := by
  induction k using Nat.strongRecOn generalizing c with
  | ind k ih =>
      by_cases earlier : ∃ j < k, ∃ d, P j d
      · obtain ⟨j, lt, d, holds⟩ := earlier
        exact ih j lt holds
      · refine ⟨k, c, h, ?_⟩
        intro j lt d holds
        exact earlier ⟨j, lt, d, holds⟩

theorem First.congr {Q : Nat → γ → Prop} (same : ∀ j d, P j d ↔ Q j d) :
    First P k c ↔ First Q k c := by
  have equal : P = Q := by
    funext j d
    exact propext (same j d)
  rw [equal]

/-- The beginning of a list has what stands at its earlier places. -/
theorem mem_take_iff {l : List γ} : c ∈ l.take k ↔ ∃ j < k, l[j]? = some c := by
  rw [List.mem_iff_getElem?]
  constructor
  · rintro ⟨j, there⟩
    rw [List.getElem?_take] at there
    split at there
    · next lt => exact ⟨j, lt, there⟩
    · cases there
  · rintro ⟨j, lt, there⟩
    refine ⟨j, ?_⟩
    rw [List.getElem?_take_of_lt lt]
    exact there

/-- A list has no repeated entry when no place repeats an earlier one. -/
theorem nodup_iff_not_mem_take {l : List γ} :
    l.Nodup ↔ ∀ (k : Nat) (c : γ), l[k]? = some c → c ∉ l.take k := by
  rw [List.nodup_iff_getElem?_ne_getElem?]
  constructor
  · intro distinct k c there earlier
    obtain ⟨j, lt, at_j⟩ := mem_take_iff.1 earlier
    exact distinct j k lt (List.getElem?_eq_some_iff.1 there).1 (at_j.trans there.symm)
  · intro fresh i j lt inside same
    have at_j : l[j]? = some l[j] := List.getElem?_eq_getElem inside
    exact fresh j l[j] at_j (mem_take_iff.2 ⟨i, lt, same.trans at_j⟩)

end First

end Protograph
