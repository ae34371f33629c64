import Mathlib.Data.List.Sort
import Mathlib.Data.List.Induction
import Mathlib.Order.Compare

/-!
# Two ways to pick a maximum

`Iterator::max_by` returns the last of the greatest elements, a stable descending sort puts
the first of them in front. Both are described by `Leader`: an element together with what
stands before it and what stands after it in the list.
-/

namespace XboxProxy.Misc

variable {α β : Type}

/-- `Iterator::max_by`: a left fold that keeps the later of two equal elements. -/
def maxBy (cmp : α → α → Ordering) : List α → Option α
  | [] => none
  | x :: xs => some (xs.foldl (fun best y => if cmp best y = .gt then best else y) x)

/-- `x` occurs in `l` such that everything before it is `before`-related to it and
everything after it is `after`-related to it. -/
def Leader (before after : α → α → Prop) (l : List α) (x : α) : Prop :=
  ∃ front back, l = front ++ x :: back ∧ (∀ y ∈ front, before y x) ∧ ∀ y ∈ back, after y x

theorem Leader.mem {before after : α → α → Prop} {l : List α} {x : α}
    (leader : Leader before after l x) : x ∈ l := by
  obtain ⟨front, back, rfl, -, -⟩ := leader
  simp

/-- Two places of one list: the same one, or one stands before the other. -/
theorem split_cases {front back front' back' : List α} {x y : α}
    (split : front ++ x :: back = front' ++ y :: back') :
    x = y ∨ (x ∈ front' ∧ y ∈ back) ∨ (y ∈ front ∧ x ∈ back') := by
  rcases List.append_eq_append_iff.mp split with ⟨between, rfl, rest⟩ | ⟨between, rfl, rest⟩
  · cases between with
    | nil => exact .inl (by simpa using (List.cons.inj rest).1)
    | cons z zs =>
      obtain ⟨rfl, rfl⟩ := List.cons.inj rest
      exact .inr (.inl (by simp))
  · cases between with
    | nil => exact .inl (by simpa using (List.cons.inj rest).1.symm)
    | cons z zs =>
      obtain ⟨rfl, rfl⟩ := List.cons.inj rest
      exact .inr (.inr (by simp))

/-- No element has two leaders when the two relations exclude each other. -/
theorem Leader.unique {before after : α → α → Prop}
    (excl : ∀ x y, before x y → ¬ after y x) {l : List α} {x y : α}
    (hx : Leader before after l x) (hy : Leader before after l y) : x = y := by
  obtain ⟨front, back, rfl, hfront, hback⟩ := hx
  obtain ⟨front', back', split, hfront', hback'⟩ := hy
  rcases split_cases split with same | ⟨first, later⟩ | ⟨first, later⟩
  · exact same
  · exact absurd (hback y later) (excl x y (hfront' x first))
  · exact absurd (hback' x later) (excl y x (hfront y first))

section Key

variable [LinearOrder β] (key : α → β)

/-- The first of the elements with the greatest key. -/
def FirstMax (l : List α) (x : α) : Prop :=
  Leader (fun y x => key y < key x) (fun y x => key y ≤ key x) l x

/-- The last of the elements with the greatest key. -/
def LastMax (l : List α) (x : α) : Prop :=
  Leader (fun y x => key y ≤ key x) (fun y x => key y < key x) l x

variable {key}

theorem FirstMax.unique {l : List α} {x y : α} (hx : FirstMax key l x) (hy : FirstMax key l y) :
    x = y :=
  Leader.unique (fun _ _ less => not_le.mpr less) hx hy

theorem LastMax.unique {l : List α} {x y : α} (hx : LastMax key l x) (hy : LastMax key l y) :
    x = y :=
  Leader.unique (fun _ _ le => not_lt.mpr le) hx hy

theorem FirstMax.le {l : List α} {x y : α} (hx : FirstMax key l x) (mem : y ∈ l) :
    key y ≤ key x := by
  obtain ⟨front, back, rfl, hfront, hback⟩ := hx
  rcases List.mem_append.mp mem with member | member
  · exact (hfront y member).le
  · rcases List.mem_cons.mp member with rfl | member
    · exact le_rfl
    · exact hback y member

theorem LastMax.le {l : List α} {x y : α} (hx : LastMax key l x) (mem : y ∈ l) :
    key y ≤ key x := by
  obtain ⟨front, back, rfl, hfront, hback⟩ := hx
  rcases List.mem_append.mp mem with member | member
  · exact hfront y member
  · rcases List.mem_cons.mp member with rfl | member
    · exact le_rfl
    · exact (hback y member).le

theorem LastMax.filter {p : α → Bool} {l : List α} {x : α} (hx : LastMax key l x)
    (kept : p x = true) : LastMax key (l.filter p) x := by
  obtain ⟨front, back, rfl, hfront, hback⟩ := hx
  refine ⟨front.filter p, back.filter p, ?_, fun y member => ?_, fun y member => ?_⟩
  · rw [List.filter_append, List.filter_cons_of_pos kept]
  · exact hfront y (List.mem_filter.mp member).1
  · exact hback y (List.mem_filter.mp member).1

theorem LastMax.congr {key' : α → β} {l : List α} {x : α} (same : ∀ y ∈ l, key y = key' y)
    (hx : LastMax key l x) : LastMax key' l x := by
  have here := same x hx.mem
  obtain ⟨front, back, rfl, hfront, hback⟩ := hx
  refine ⟨front, back, rfl, fun y member => ?_, fun y member => ?_⟩
  · have le : key y ≤ key x := hfront y member
    rw [same y (by simp [member]), here] at le
    exact le
  · have lt : key y < key x := hback y member
    rw [same y (by simp [member]), here] at lt
    exact lt

/-- One step of the fold behind `maxBy`. -/
theorem LastMax.snoc {l : List α} {x : α} (hx : LastMax key l x) (y : α) :
    LastMax key (l ++ [y]) (if compare (key x) (key y) = .gt then x else y) := by
  split
  · rename_i greater
    obtain ⟨front, back, rfl, hfront, hback⟩ := hx
    refine ⟨front, back ++ [y], by simp, hfront, fun z member => ?_⟩
    rcases List.mem_append.mp member with member | member
    · exact hback z member
    · obtain rfl : z = y := by simpa using member
      exact compare_gt_iff_gt.mp greater
  · rename_i notGreater
    have le : key x ≤ key y := compare_le_iff_le.mp notGreater
    exact ⟨l, [], by simp, fun z member => (hx.le member).trans le, by simp⟩

theorem foldl_lastMax (x : α) (xs : List α) :
    LastMax key (x :: xs)
      (xs.foldl (fun best y => if compare (key best) (key y) = .gt then best else y) x) := by
  induction xs using List.reverseRecOn with
  | nil => exact ⟨[], [], rfl, by simp, by simp⟩
  | append_singleton xs y ih =>
    rw [List.foldl_append, ← List.cons_append]
    exact ih.snoc y

/-- `maxBy` on keys returns the last maximum. -/
theorem maxBy_eq_some_iff {l : List α} {x : α} :
    maxBy (fun a b => compare (key a) (key b)) l = some x ↔ LastMax key l x := by
  cases l with
  | nil =>
    constructor
    · intro none
      simp [maxBy] at none
    · intro leader
      simpa using leader.mem
  | cons y ys =>
    have last := @foldl_lastMax _ _ _ key y ys
    constructor
    · intro found
      rw [← Option.some.inj found]
      exact last
    · intro leader
      exact congrArg some (last.unique leader)

theorem maxBy_isSome {cmp : α → α → Ordering} {l : List α} (nonempty : l ≠ []) :
    (maxBy cmp l).isSome := by
  cases l with
  | nil => exact absurd rfl nonempty
  | cons x xs => rfl

theorem insertionSort_eq_nil_iff {r : α → α → Prop} [DecidableRel r] {l : List α} :
    l.insertionSort r = [] ↔ l = [] := by
  rw [← List.length_eq_zero_iff, List.length_insertionSort, List.length_eq_zero_iff]

/-- The head of a stable descending sort is the first maximum. -/
theorem head?_insertionSort {l : List α} {x : α} :
    (l.insertionSort (fun a b => key b ≤ key a)).head? = some x ↔ FirstMax key l x := by
  induction l generalizing x with
  | nil =>
    constructor
    · intro none
      simp at none
    · intro leader
      simpa using leader.mem
  | cons y ys ih =>
    -- `y` is inserted in front of the head `b` of the sorted rest unless `b` beats it
    have first : ∀ z, (List.orderedInsert (fun a b => key b ≤ key a) y
        (ys.insertionSort (fun a b => key b ≤ key a))).head? = some z →
        FirstMax key (y :: ys) z := by
      intro z head
      cases sorted : ys.insertionSort (fun a b => key b ≤ key a) with
      | nil =>
        have empty : ys = [] := insertionSort_eq_nil_iff.mp sorted
        obtain rfl : y = z := by simpa [sorted] using head
        exact ⟨[], [], by simp [empty], by simp, by simp⟩
      | cons b bs =>
        have best : FirstMax key ys b := ih.mp (by rw [sorted]; rfl)
        rw [sorted, List.orderedInsert_cons] at head
        split at head
        · rename_i le
          obtain rfl : y = z := by simpa using head
          exact ⟨[], ys, rfl, by simp, fun w member => (best.le member).trans le⟩
        · rename_i less
          obtain rfl : b = z := by simpa using head
          obtain ⟨front, back, rfl, hfront, hback⟩ := best
          refine ⟨y :: front, back, rfl, fun w member => ?_, hback⟩
          rcases List.mem_cons.mp member with rfl | member
          · exact not_le.mp less
          · exact hfront w member
    rw [List.insertionSort_cons]
    constructor
    · exact first x
    · intro leader
      cases head : (List.orderedInsert (fun a b => key b ≤ key a) y
          (ys.insertionSort (fun a b => key b ≤ key a))).head? with
      | none =>
        have length := List.orderedInsert_length (fun a b => key b ≤ key a)
          (ys.insertionSort (fun a b => key b ≤ key a)) y
        rw [List.head?_eq_none_iff.mp head] at length
        simp at length
      | some z => rw [(first z head).unique leader]

end Key

end XboxProxy.Misc
