import Mathlib.Data.List.Basic
import Mathlib.Data.List.Nodup
import Mathlib.Data.List.Induction

/-!
# Multimaps that keep their order

A map from keys to non-empty lists of values, in the order the keys were first entered.
`insert` replaces the values of a key, `append` adds one after them, and iteration yields
every value with its key. Copying the pairs of an iteration one by one with `append` keeps
them all; copying them with `insert` keeps the last value of each key.
-/

namespace XboxProxy.Misc

variable {κ ν : Type} [DecidableEq κ]

/-! ## Lists of entries -/

/-- The values of `k`, none when it is absent. -/
def valuesOf (k : κ) : List (κ × List ν) → List ν
  | [] => []
  | (k', vs) :: rest => if k' = k then vs else valuesOf k rest

/-- Change the values of `k`; an absent key is entered last. -/
def alterEntry (k : κ) (f : List ν → List ν) : List (κ × List ν) → List (κ × List ν)
  | [] => [(k, f [])]
  | (k', vs) :: rest => if k' = k then (k', f vs) :: rest else (k', vs) :: alterEntry k f rest

theorem valuesOf_alterEntry (k k' : κ) (f : List ν → List ν) (l : List (κ × List ν)) :
    valuesOf k' (alterEntry k f l) = if k = k' then f (valuesOf k l) else valuesOf k' l := by
  induction l with
  | nil => by_cases same : k = k' <;> simp [alterEntry, valuesOf, same]
  | cons e rest ih =>
    obtain ⟨j, vs⟩ := e
    by_cases here : j = k
    · subst here
      by_cases same : j = k' <;> simp [alterEntry, valuesOf, same]
    · simp only [alterEntry, here, if_false, valuesOf, ih]
      by_cases there : j = k'
      · subst there
        simp [Ne.symm here]
      · simp [there]

theorem mem_keys_alterEntry {k j : κ} {f : List ν → List ν} {l : List (κ × List ν)} :
    j ∈ (alterEntry k f l).map Prod.fst ↔ j = k ∨ j ∈ l.map Prod.fst := by
  induction l with
  | nil => simp [alterEntry]
  | cons e rest ih =>
    obtain ⟨i, vs⟩ := e
    by_cases here : i = k
    · subst here
      simp [alterEntry]
    · simp only [alterEntry, here, if_false, List.map_cons, List.mem_cons, ih]
      tauto

theorem nodup_keys_alterEntry {k : κ} {f : List ν → List ν} {l : List (κ × List ν)}
    (distinct : (l.map Prod.fst).Nodup) : ((alterEntry k f l).map Prod.fst).Nodup := by
  induction l with
  | nil => simp [alterEntry]
  | cons e rest ih =>
    obtain ⟨i, vs⟩ := e
    rw [List.map_cons, List.nodup_cons] at distinct
    by_cases here : i = k
    · subst here
      simpa [alterEntry] using distinct
    · simp only [alterEntry, here, if_false, List.map_cons, List.nodup_cons]
      refine ⟨?_, ih distinct.2⟩
      rw [mem_keys_alterEntry]
      rintro (same | old)
      · exact here same
      · exact distinct.1 old

theorem nonempty_alterEntry {k : κ} {f : List ν → List ν} (nonempty : ∀ vs, f vs ≠ [])
    {l : List (κ × List ν)} (all : ∀ e ∈ l, e.2 ≠ []) : ∀ e ∈ alterEntry k f l, e.2 ≠ [] := by
  induction l with
  | nil => simp [alterEntry, nonempty]
  | cons e rest ih =>
    obtain ⟨i, vs⟩ := e
    rw [List.forall_mem_cons] at all
    by_cases here : i = k
    · simp only [alterEntry, here, if_true, List.forall_mem_cons]
      exact ⟨nonempty vs, all.2⟩
    · simp only [alterEntry, here, if_false, List.forall_mem_cons]
      exact ⟨all.1, ih all.2⟩

/-! ## Multimaps -/

/-- Entries with pairwise distinct keys and at least one value each. -/
structure Multimap (κ ν : Type) where
  entries : List (κ × List ν)
  distinct : (entries.map Prod.fst).Nodup
  nonempty : ∀ e ∈ entries, e.2 ≠ []

namespace Multimap

def empty : Multimap κ ν := ⟨[], by simp, by simp⟩

/-- The values of a key, in order. -/
def getAll (m : Multimap κ ν) (k : κ) : List ν := valuesOf k m.entries

/-- The first value of a key. -/
def get (m : Multimap κ ν) (k : κ) : Option ν := (m.getAll k).head?

/-- The only value of `k` is now `v`. -/
def insert (m : Multimap κ ν) (k : κ) (v : ν) : Multimap κ ν where
  entries := alterEntry k (fun _ => [v]) m.entries
  distinct := nodup_keys_alterEntry m.distinct
  nonempty := nonempty_alterEntry (by simp) m.nonempty

/-- `v` is now the last value of `k`. -/
def append (m : Multimap κ ν) (k : κ) (v : ν) : Multimap κ ν where
  entries := alterEntry k (· ++ [v]) m.entries
  distinct := nodup_keys_alterEntry m.distinct
  nonempty := nonempty_alterEntry (by simp) m.nonempty

/-- Every value with its key. -/
def iter (m : Multimap κ ν) : List (κ × ν) :=
  m.entries.flatMap fun e => e.2.map fun v => (e.1, v)

/-- Copy pairs one by one with `insert`. -/
def insertAll (m : Multimap κ ν) (pairs : List (κ × ν)) : Multimap κ ν :=
  pairs.foldl (fun (m : Multimap κ ν) e => m.insert e.1 e.2) m

/-- Copy pairs one by one with `append`. -/
def appendAll (m : Multimap κ ν) (pairs : List (κ × ν)) : Multimap κ ν :=
  pairs.foldl (fun (m : Multimap κ ν) e => m.append e.1 e.2) m

theorem insertAll_snoc (m : Multimap κ ν) (pairs : List (κ × ν)) (e : κ × ν) :
    m.insertAll (pairs ++ [e]) = (m.insertAll pairs).insert e.1 e.2 := by
  simp [insertAll]

theorem appendAll_snoc (m : Multimap κ ν) (pairs : List (κ × ν)) (e : κ × ν) :
    m.appendAll (pairs ++ [e]) = (m.appendAll pairs).append e.1 e.2 := by
  simp [appendAll]

theorem getAll_insert (m : Multimap κ ν) (k k' : κ) (v : ν) :
    (m.insert k v).getAll k' = if k = k' then [v] else m.getAll k' :=
  valuesOf_alterEntry k k' _ m.entries

theorem getAll_append (m : Multimap κ ν) (k k' : κ) (v : ν) :
    (m.append k v).getAll k' = if k = k' then m.getAll k ++ [v] else m.getAll k' :=
  valuesOf_alterEntry k k' _ m.entries

/-- The values an iteration yields for `k`. -/
def pairsOf (k : κ) (pairs : List (κ × ν)) : List ν :=
  (pairs.filter fun e => decide (e.1 = k)).map Prod.snd

theorem pairsOf_append (k : κ) (xs ys : List (κ × ν)) :
    pairsOf k (xs ++ ys) = pairsOf k xs ++ pairsOf k ys := by
  simp [pairsOf]

/-- The values one entry contributes. -/
theorem pairsOf_entry (k j : κ) (vs : List ν) :
    pairsOf k (vs.map fun v => (j, v)) = if j = k then vs else [] := by
  by_cases same : j = k <;> simp [pairsOf, List.filter_map, Function.comp_def, same]

theorem pairsOf_eq_nil {k : κ} {l : List (κ × List ν)} (absent : k ∉ l.map Prod.fst) :
    pairsOf k (l.flatMap fun e => e.2.map fun v => (e.1, v)) = [] := by
  induction l with
  | nil => rfl
  | cons e rest ih =>
    rw [List.map_cons, List.mem_cons, not_or] at absent
    rw [List.flatMap_cons, pairsOf_append, pairsOf_entry, if_neg (Ne.symm absent.1),
      ih absent.2, List.append_nil]

theorem pairsOf_flatMap {k : κ} {l : List (κ × List ν)} (distinct : (l.map Prod.fst).Nodup) :
    pairsOf k (l.flatMap fun e => e.2.map fun v => (e.1, v)) = valuesOf k l := by
  induction l with
  | nil => rfl
  | cons e rest ih =>
    rw [List.map_cons, List.nodup_cons] at distinct
    rw [List.flatMap_cons, pairsOf_append, pairsOf_entry, valuesOf]
    by_cases here : e.1 = k
    · have none_later := pairsOf_eq_nil (here ▸ distinct.1)
      rw [if_pos here, if_pos here, none_later, List.append_nil]
    · rw [if_neg here, if_neg here, ih distinct.2, List.nil_append]

/-- An iteration yields the values of each key in order. -/
theorem pairsOf_iter (m : Multimap κ ν) (k : κ) : pairsOf k m.iter = m.getAll k :=
  pairsOf_flatMap m.distinct

/-- A filter on keys keeps all the values of the keys it keeps. -/
theorem pairsOf_filter (keep : κ → Bool) {k : κ} (kept : keep k = true) (pairs : List (κ × ν)) :
    pairsOf k (pairs.filter fun e => keep e.1) = pairsOf k pairs := by
  unfold pairsOf
  rw [List.filter_filter]
  congr 1
  apply List.filter_congr
  intro e _
  by_cases here : e.1 = k <;> simp [here, kept]

/-- A filter on keys leaves no value of the keys it drops. -/
theorem pairsOf_filter_of_not (keep : κ → Bool) {k : κ} (dropped : keep k = false)
    (pairs : List (κ × ν)) : pairsOf k (pairs.filter fun e => keep e.1) = [] := by
  unfold pairsOf
  rw [List.filter_filter]
  simp only [List.map_eq_nil_iff, List.filter_eq_nil_iff, Bool.and_eq_true, decide_eq_true_eq,
    not_and]
  rintro e - rfl
  simp [dropped]

/-- Copying with `insert` leaves the last value of each key. -/
theorem getAll_insertAll (m : Multimap κ ν) (pairs : List (κ × ν)) (k : κ) :
    (m.insertAll pairs).getAll k =
      match (pairsOf k pairs).getLast? with
      | some v => [v]
      | none => m.getAll k := by
  induction pairs using List.reverseRecOn with
  | nil => rfl
  | append_singleton pairs e ih =>
    rw [insertAll_snoc, getAll_insert, pairsOf_append]
    by_cases here : e.1 = k
    · simp [pairsOf, here]
    · simp [pairsOf, here, ih]

/-- Copying with `append` keeps every value, in order. -/
theorem getAll_appendAll (m : Multimap κ ν) (pairs : List (κ × ν)) (k : κ) :
    (m.appendAll pairs).getAll k = m.getAll k ++ pairsOf k pairs := by
  induction pairs using List.reverseRecOn with
  | nil => simp [pairsOf, appendAll]
  | append_singleton pairs e ih =>
    rw [appendAll_snoc, getAll_append, pairsOf_append]
    by_cases here : e.1 = k
    · subst here
      simp [pairsOf, ih]
    · simp [pairsOf, here, ih]

end Multimap
end XboxProxy.Misc
