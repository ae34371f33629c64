import Mathlib.Data.List.Sort
import Mathlib.Data.List.Dedup
import Mathlib.Algebra.BigOperators.Group.List.Lemmas

/-!
# The clauses of a query

`GROUP BY` splits rows by a key, `ORDER BY` sorts and `LIMIT` cuts what comes out. The groups
of a key partition the rows, so what is summed over the groups is what is summed over the
rows.
-/

namespace XboxProxy.Misc

section GroupBy
variable {α κ M : Type} [DecidableEq κ]

/-- `GROUP BY key`: each key that occurs, with the rows that have it. -/
def groupBy (key : α → κ) (rows : List α) : List (κ × List α) :=
  (rows.map key).dedup.map fun k => (k, rows.filter fun row => key row = k)

variable {key : α → κ} {rows : List α}

theorem mem_groupBy {g : κ × List α} :
    g ∈ groupBy key rows ↔
      (∃ row ∈ rows, key row = g.1) ∧ g.2 = rows.filter fun row => key row = g.1 := by
  unfold groupBy
  simp only [List.mem_map, List.mem_dedup]
  constructor
  · rintro ⟨k, present, rfl⟩
    exact ⟨present, rfl⟩
  · rintro ⟨present, same⟩
    exact ⟨g.1, present, Prod.ext rfl same.symm⟩

theorem nodup_keys_groupBy : (groupBy key rows).Pairwise fun g h => g.1 ≠ h.1 :=
  List.pairwise_map.mpr (List.nodup_dedup _)

variable [AddCommMonoid M]

theorem sum_ite_of_nodup {k : κ} {keys : List κ} (distinct : keys.Nodup) (present : k ∈ keys)
    (x : M) : (keys.map fun k' => if k = k' then x else 0).sum = x := by
  induction keys with
  | nil => exact absurd present List.not_mem_nil
  | cons k' keys ih =>
    rw [List.nodup_cons] at distinct
    rw [List.map_cons, List.sum_cons]
    by_cases here : k = k'
    · have absent : ∀ y ∈ keys.map fun k' => if k = k' then x else 0, y = 0 := by
        intro y member
        obtain ⟨other, later, rfl⟩ := List.mem_map.mp member
        refine if_neg ?_
        rintro rfl
        exact distinct.1 (here ▸ later)
      rw [if_pos here, List.sum_eq_zero absent, add_zero]
    · have later := List.mem_of_ne_of_mem here present
      rw [if_neg here, zero_add, ih distinct.2 later]

/-- Distinct keys that include those of all rows partition the rows. -/
theorem sum_filter_keys {keys : List κ} (distinct : keys.Nodup) (value : α → M)
    (covered : ∀ row ∈ rows, key row ∈ keys) :
    (keys.map fun k => ((rows.filter fun row => key row = k).map value).sum).sum =
      (rows.map value).sum := by
  induction rows with
  | nil => exact List.sum_eq_zero (by simp)
  | cons row rows ih =>
    have split : ∀ k, (((row :: rows).filter fun row => key row = k).map value).sum =
        (if key row = k then value row else 0) +
          ((rows.filter fun row => key row = k).map value).sum := by
      intro k
      by_cases here : key row = k
      · simp [here]
      · simp [here]
    have rest := ih fun row' member => covered row' (List.mem_cons_of_mem row member)
    simp only [split, List.sum_map_add, List.map_cons, List.sum_cons]
    rw [sum_ite_of_nodup distinct (covered row List.mem_cons_self), rest]

/-- Conservation: a sum over the groups is the sum over the rows. -/
theorem sum_groupBy (value : α → M) :
    ((groupBy key rows).map fun g => (g.2.map value).sum).sum = (rows.map value).sum := by
  unfold groupBy
  rw [List.map_map]
  exact sum_filter_keys (List.nodup_dedup _) value
    fun row member => List.mem_dedup.mpr (List.mem_map_of_mem member)

end GroupBy

section OrderBy
variable {α κ : Type} [LinearOrder κ]

/-- `ORDER BY column`. -/
def orderBy (column : α → κ) (rows : List α) : List α :=
  rows.insertionSort fun a b => column a ≤ column b

/-- `ORDER BY column DESC`. -/
def orderByDesc (column : α → κ) (rows : List α) : List α :=
  rows.insertionSort fun a b => column b ≤ column a

theorem perm_orderBy (column : α → κ) (rows : List α) : (orderBy column rows).Perm rows :=
  List.perm_insertionSort _ rows

theorem perm_orderByDesc (column : α → κ) (rows : List α) :
    (orderByDesc column rows).Perm rows :=
  List.perm_insertionSort _ rows

/-- A column without repetitions comes in increasing order. -/
theorem orderBy_increasing {column : α → κ} {rows : List α}
    (distinct : rows.Pairwise fun a b => column a ≠ column b) :
    (orderBy column rows).Pairwise fun a b => column a < column b := by
  have total : Std.Total fun a b => column a ≤ column b := ⟨fun a b => le_total _ _⟩
  have trans : IsTrans α fun a b => column a ≤ column b := ⟨fun a b c => le_trans⟩
  have sorted : (orderBy column rows).Pairwise fun a b => column a ≤ column b :=
    List.pairwise_insertionSort _ rows
  have different : (orderBy column rows).Pairwise fun a b => column a ≠ column b :=
    ((perm_orderBy column rows).pairwise_iff fun ne => ne.symm).mpr distinct
  exact (sorted.and different).imp fun both => lt_of_le_of_ne both.1 both.2

theorem orderedInsert_eq_append {r : α → α → Prop} [DecidableRel r] {x : α} {l : List α}
    (last : ∀ y ∈ l, ¬ r x y) : l.orderedInsert r x = l ++ [x] := by
  induction l with
  | nil => rfl
  | cons y l ih =>
    rw [List.orderedInsert_cons, if_neg (last y List.mem_cons_self),
      ih fun z member => last z (List.mem_cons_of_mem y member)]
    rfl

/-- Rows under an increasing column come in reverse. -/
theorem orderByDesc_eq_reverse {column : α → κ} {rows : List α}
    (increasing : rows.Pairwise fun a b => column a < column b) :
    orderByDesc column rows = rows.reverse := by
  unfold orderByDesc
  induction rows with
  | nil => rfl
  | cons row rows ih =>
    rw [List.pairwise_cons] at increasing
    rw [List.insertionSort_cons, ih increasing.2, List.reverse_cons]
    apply orderedInsert_eq_append
    intro other member
    exact not_le_of_gt (increasing.1 other (List.mem_reverse.mp member))

end OrderBy

/-- `LIMIT n`: a negative `n` is no limit. -/
def limited {α : Type} (n : Int) (rows : List α) : List α :=
  if n < 0 then rows else rows.take n.toNat

section Results
variable {α β γ : Type}

/-- Rows that can all be read, each with a property of what is read. -/
theorem exists_mapM {read : α → Option β} {P : α → β → Prop} {rows : List α}
    (reads : ∀ a ∈ rows, ∃ b, read a = some b ∧ P a b) :
    ∃ results, rows.mapM read = some results ∧ List.Forall₂ P rows results := by
  induction rows with
  | nil => exact ⟨[], rfl, .nil⟩
  | cons a rows ih =>
    obtain ⟨b, here, property⟩ := reads a List.mem_cons_self
    obtain ⟨results, later, paired⟩ := ih fun a' member => reads a' (List.mem_cons_of_mem a member)
    refine ⟨b :: results, ?_, .cons property paired⟩
    rw [List.mapM_cons, here, later]
    rfl

theorem map_eq_map_of_forall₂ {P : α → β → Prop} {rows : List α} {results : List β}
    (paired : List.Forall₂ P rows results) {f : α → γ} {g : β → γ}
    (agree : ∀ a b, P a b → f a = g b) : rows.map f = results.map g := by
  induction paired with
  | nil => rfl
  | cons property _ ih => rw [List.map_cons, List.map_cons, agree _ _ property, ih]

theorem exists_of_mem_results {P : α → β → Prop} {rows : List α} {results : List β}
    (paired : List.Forall₂ P rows results) {b : β} (member : b ∈ results) :
    ∃ a ∈ rows, P a b := by
  induction paired with
  | nil => exact absurd member List.not_mem_nil
  | @cons a b' rows results property _ ih =>
    rcases List.mem_cons.mp member with rfl | later
    · exact ⟨a, List.mem_cons_self, property⟩
    · obtain ⟨a', found, property'⟩ := ih later
      exact ⟨a', List.mem_cons_of_mem a found, property'⟩

theorem exists_of_mem_rows {P : α → β → Prop} {rows : List α} {results : List β}
    (paired : List.Forall₂ P rows results) {a : α} (member : a ∈ rows) :
    ∃ b ∈ results, P a b :=
  exists_of_mem_results paired.flip member

end Results
end XboxProxy.Misc
