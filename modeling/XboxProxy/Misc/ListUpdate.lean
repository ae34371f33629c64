import Mathlib.Data.List.Basic
import Mathlib.Data.List.Nodup
import Mathlib.Data.List.Perm.Basic

/-!
# Updating one element of a list

`iter_mut().find(p)` followed by a write: the first element that satisfies a predicate is
replaced, the rest of the list stays as it is. A search that returns what it reads off the
first match is stated with the same split. And, for a list of tasks of which one moves: up to
order, the list is the task that moves and the others, which stay.
-/

namespace XboxProxy.Misc

variable {α β : Type}

/-- Apply `f` to the first element that satisfies `p`. -/
def modifyFirst (p : α → Bool) (f : α → α) : List α → List α
  | [] => []
  | x :: xs => if p x then f x :: xs else x :: modifyFirst p f xs

/-- An update that keeps `key` keeps the list of keys. -/
theorem map_modifyFirst {p : α → Bool} {f : α → α} {key : α → β}
    (keeps : ∀ x, key (f x) = key x) (l : List α) :
    (modifyFirst p f l).map key = l.map key := by
  induction l with
  | nil => rfl
  | cons x xs ih =>
    unfold modifyFirst
    split
    · simp [keeps]
    · simp [ih]

/-- Where the key is unique, updating the first match is updating every match. -/
theorem modifyFirst_eq_map [DecidableEq β] {f : α → α} {key : α → β} (k : β) {l : List α}
    (unique : (l.map key).Nodup) :
    modifyFirst (fun x => key x == k) f l = l.map fun x => if key x = k then f x else x := by
  induction l with
  | nil => rfl
  | cons x xs ih =>
    rw [List.map_cons, List.nodup_cons] at unique
    by_cases same : key x = k
    · have rest : xs.map (fun y => if key y = k then f y else y) = xs := by
        conv_rhs => rw [← List.map_id xs]
        apply List.map_congr_left
        intro y member
        have differs : key y ≠ k := by
          intro equal
          exact unique.1 (List.mem_map.mpr ⟨y, member, equal.trans same.symm⟩)
        simp [differs]
      simp [modifyFirst, same, rest]
    · simp [modifyFirst, same, ih unique.2]

theorem mem_of_mem_modifyFirst {p : α → Bool} {f : α → α} {l : List α} {y : α}
    (member : y ∈ modifyFirst p f l) : y ∈ l ∨ ∃ x ∈ l, p x = true ∧ y = f x := by
  induction l with
  | nil => simp [modifyFirst] at member
  | cons x xs ih =>
    unfold modifyFirst at member
    split at member
    · rename_i found
      rcases List.mem_cons.mp member with rfl | rest
      · exact .inr ⟨x, by simp, found, rfl⟩
      · exact .inl (List.mem_cons_of_mem x rest)
    · rcases List.mem_cons.mp member with rfl | rest
      · exact .inl (by simp)
      · rcases ih rest with before | ⟨z, before, found, rfl⟩
        · exact .inl (List.mem_cons_of_mem x before)
        · exact .inr ⟨z, List.mem_cons_of_mem x before, found, rfl⟩

/-- The first match is found behind the elements that do not match. -/
theorem modifyFirst_split {p : α → Bool} {f : α → α} {front : List α} {x : α}
    (skipped : ∀ y ∈ front, p y = false) (found : p x = true) (back : List α) :
    modifyFirst p f (front ++ x :: back) = front ++ f x :: back := by
  induction front with
  | nil => simp [modifyFirst, found]
  | cons y front ih =>
    have rest := ih fun z member => skipped z (List.mem_cons_of_mem y member)
    simp [modifyFirst, skipped y (by simp), rest]

theorem getElem?_modifyFirst_of_not {p : α → Bool} {f : α → α} {l : List α} {j : Nat} {x : α}
    (here : l[j]? = some x) (skipped : p x = false) : (modifyFirst p f l)[j]? = some x := by
  induction l generalizing j with
  | nil => simp at here
  | cons y l ih =>
    unfold modifyFirst
    cases j with
    | zero =>
      obtain rfl : y = x := by simpa using here
      simp [skipped]
    | succ j =>
      rw [List.getElem?_cons_succ] at here
      split
      · exact here
      · exact ih here

theorem getElem?_modifyFirst (p : α → Bool) (f : α → α) (l : List α) (j : Nat) :
    (modifyFirst p f l)[j]? = if l.findIdx? p = some j then (l[j]?).map f else l[j]? := by
  induction l generalizing j with
  | nil => simp [modifyFirst]
  | cons x l ih =>
    unfold modifyFirst
    rw [List.findIdx?_cons]
    cases found : p x with
    | true => cases j <;> simp
    | false =>
      cases j with
      | zero => simp
      | succ j => simp [ih]

/-- Updates of different elements commute. -/
theorem modifyFirst_comm {p q : α → Bool} {f g : α → α} (apart : ∀ x, p x = true → q x = false)
    (keepsP : ∀ x, p (g x) = p x) (keepsQ : ∀ x, q (f x) = q x) (l : List α) :
    modifyFirst p f (modifyFirst q g l) = modifyFirst q g (modifyFirst p f l) := by
  induction l with
  | nil => rfl
  | cons x l ih =>
    cases first : p x with
    | true =>
      have other := apart x first
      simp [modifyFirst, first, other, keepsQ]
    | false =>
      cases second : q x with
      | true => simp [modifyFirst, first, second, keepsP]
      | false => simp [modifyFirst, first, second, ih]

/-! ## The first match -/

/-- `x` is the first element of the list with `p`. -/
def FirstWhere (p : α → Prop) (l : List α) (x : α) : Prop :=
  ∃ front back, l = front ++ x :: back ∧ p x ∧ ∀ y ∈ front, ¬ p y

/-- A first-match search returns what it reads off the first element it finds something in. -/
theorem findSome?_eq_some_iff_firstWhere {p : α → Prop} {f : α → Option β}
    (finds : ∀ x, (f x).isSome ↔ p x) {l : List α} {b : β} :
    l.findSome? f = some b ↔ ∃ x, FirstWhere p l x ∧ f x = some b := by
  have missed : ∀ x, f x = none ↔ ¬ p x := by
    intro x
    rw [← finds, Option.not_isSome_iff_eq_none]
  rw [List.findSome?_eq_some_iff]
  constructor
  · rintro ⟨front, x, back, split, found, none⟩
    refine ⟨x, ⟨front, back, split, ?_, fun y member => (missed y).mp (none y member)⟩, found⟩
    rw [← finds, found]
    rfl
  · rintro ⟨x, ⟨front, back, split, -, none⟩, found⟩
    exact ⟨front, x, back, split, found, fun y member => (missed y).mpr (none y member)⟩

theorem FirstWhere.mem {p : α → Prop} {l : List α} {x : α} (first : FirstWhere p l x) : x ∈ l := by
  obtain ⟨front, back, rfl, -⟩ := first
  simp

theorem FirstWhere.holds {p : α → Prop} {l : List α} {x : α} (first : FirstWhere p l x) : p x := by
  obtain ⟨front, back, -, here, -⟩ := first
  exact here

theorem exists_firstWhere {p : α → Prop} {l : List α} {y : α} (member : y ∈ l) (here : p y) :
    ∃ x, FirstWhere p l x := by
  classical
  have some : (l.find? fun x => decide (p x)).isSome :=
    List.find?_isSome.mpr ⟨y, member, decide_eq_true here⟩
  obtain ⟨x, found⟩ := Option.isSome_iff_exists.mp some
  obtain ⟨holds, front, back, split, none⟩ := List.find?_eq_some_iff_append.mp found
  refine ⟨x, front, back, split, of_decide_eq_true holds, fun z member => ?_⟩
  simpa using none z member

/-! ## One element of many -/

/-- The element at `i` and the others. -/
theorem perm_cons_eraseIdx {l : List α} {i : Nat} {x : α} (found : l[i]? = some x) :
    l.Perm (x :: l.eraseIdx i) := by
  obtain ⟨bound, rfl⟩ := List.getElem?_eq_some_iff.mp found
  exact (List.getElem_cons_eraseIdx_perm bound).symm

/-- An element of the list in which the one at `i` is replaced is the new one or an old one. -/
theorem getElem?_set_cases {l : List α} {i j : Nat} {x y : α}
    (found : (l.set i y)[j]? = some x) : (j = i ∧ x = y) ∨ l[j]? = some x := by
  by_cases same : i = j
  · subst same
    by_cases bound : i < l.length
    · rw [List.getElem?_set_self bound] at found
      exact .inl ⟨rfl, (Option.some.inj found).symm⟩
    · rw [List.getElem?_eq_none (by simpa using bound)] at found
      cases found
  · rw [List.getElem?_set_ne same] at found
    exact .inr found

/-- Replacing the element at `i` leaves the others. -/
theorem perm_set {l : List α} {i : Nat} {x : α} (found : l[i]? = some x) (y : α) :
    (l.set i y).Perm (y :: l.eraseIdx i) :=
  List.set_perm_cons_eraseIdx (List.getElem?_eq_some_iff.mp found).1 y

end XboxProxy.Misc
