import XboxProxy.Misc.Str

/-!
# Host names as lists of labels

`DotSuffix` compares characters. Between the dots of a name stand its labels, and on them the
comparison is a suffix test, for any two strings: empty labels and look-alike endings included.
-/

namespace XboxProxy.Misc

/-- The labels of a name. -/
def labels (s : String) : List (List Char) := s.toList.splitOn '.'

/-- Joining the pieces of two lists joins the lists at one more separator. -/
theorem intercalate_append {α : Type} {x : α} {front back : List (List α)} (front_ne : front ≠ [])
    (back_ne : back ≠ []) :
    [x].intercalate (front ++ back) = [x].intercalate front ++ x :: [x].intercalate back := by
  induction front with
  | nil => exact absurd rfl front_ne
  | cons piece front ih =>
    by_cases last : front = []
    · subst last
      rw [List.cons_append, List.nil_append, List.intercalate_cons_of_ne_nil back_ne,
        List.intercalate_singleton, List.append_assoc]
      rfl
    · have rest : front ++ back ≠ [] := by simp [last]
      rw [List.cons_append, List.intercalate_cons_of_ne_nil rest, ih last,
        List.intercalate_cons_of_ne_nil last]
      simp

/-- What stands in joined pieces is the separator or stands in a piece. -/
theorem mem_intercalate {α : Type} {x a : α} {pieces : List (List α)}
    (member : a ∈ [x].intercalate pieces) : a = x ∨ ∃ piece ∈ pieces, a ∈ piece := by
  induction pieces with
  | nil => simp at member
  | cons piece pieces ih =>
    by_cases last : pieces = []
    · subst last
      rw [List.intercalate_singleton] at member
      exact Or.inr ⟨piece, by simp, member⟩
    · rw [List.intercalate_cons_of_ne_nil last, List.append_assoc] at member
      rcases List.mem_append.mp member with first | later
      · exact Or.inr ⟨piece, by simp, first⟩
      · rcases List.mem_append.mp later with separator | rest
        · exact Or.inl (List.mem_singleton.mp separator)
        · exact (ih rest).imp_right fun ⟨piece', one, inside⟩ =>
            ⟨piece', List.mem_cons_of_mem _ one, inside⟩

/-- The pieces of `d` end the pieces of `h` if `d` is all of `h`, or what stands behind a
separator. -/
theorem splitOn_suffix_iff {α : Type} [DecidableEq α] {x : α} {d h : List α} :
    d.splitOn x <:+ h.splitOn x ↔ h = d ∨ x :: d <:+ h := by
  constructor
  · rintro ⟨front, same⟩
    have whole : [x].intercalate (front ++ d.splitOn x) = h := by
      rw [same, List.intercalate_splitOn]
    by_cases all : front = []
    · left
      rw [← whole, all, List.nil_append, List.intercalate_splitOn]
    · right
      refine ⟨[x].intercalate front, ?_⟩
      rw [← whole, intercalate_append all (List.splitOn_ne_nil x d), List.intercalate_splitOn]
  · rintro (rfl | ⟨front, rfl⟩)
    · exact List.suffix_rfl
    · rw [List.splitOn_append_cons_self]
      exact List.suffix_append _ _

/-- A host falls under a domain if the labels of the domain end those of the host. -/
theorem dotSuffix_iff_labels {d h : String} : DotSuffix d h ↔ labels d <:+ labels h := by
  rw [dotSuffix_iff, labels, labels, splitOn_suffix_iff]

/-- An ending that domain and host share makes no difference. -/
theorem dotSuffix_append_iff {d h : String} {x p t : List Char} (domain : d.toList = x ++ t)
    (host : h.toList = p ++ t) : DotSuffix d h ↔ p = x ∨ '.' :: x <:+ p := by
  rw [dotSuffix_iff, domain, host, List.append_left_inj, ← List.cons_append]
  refine or_congr_right ⟨?_, ?_⟩
  · rintro ⟨front, same⟩
    rw [← List.append_assoc, List.append_left_inj] at same
    exact ⟨front, same⟩
  · rintro ⟨front, rfl⟩
    exact ⟨front, by simp⟩

example : ¬ labels "cdn.example.com" <:+ labels "cdn.example.com.evil.net" := by decide

end XboxProxy.Misc
