import XboxProxy.Misc.Str

/-!
# Lines of a text

`str::lines` on a text put together from lines, each ended by a newline or by a carriage
return and a newline; the last line may stand without its end.
-/

namespace XboxProxy.Misc

/-- How a line ends. -/
inductive LineEnd where
  | lf
  | crlf

def LineEnd.chars : LineEnd → List Char
  | .lf => ['\n']
  | .crlf => ['\r', '\n']

/-- The characters of a line without its end. -/
def PlainLine (line : String) : Prop := '\n' ∉ line.toList ∧ '\r' ∉ line.toList

instance (line : String) : Decidable (PlainLine line) :=
  inferInstanceAs (Decidable (_ ∧ _))

/-- The text of ended lines and of what stands behind the last end. -/
def linesText (ended : List (String × LineEnd)) (last : String) : String :=
  String.ofList (ended.flatMap (fun line => line.1.toList ++ line.2.chars) ++ last.toList)

theorem lines_newline {front rest : List Char} (plain : '\n' ∉ front) :
    lines (String.ofList (front ++ '\n' :: rest)) =
      String.ofList (if front.getLast? = some '\r' then front.dropLast else front) ::
        lines (String.ofList rest) := by
  have nonempty : rest.splitOn '\n' ≠ [] := List.splitOn_ne_nil _ _
  have last : (front :: rest.splitOn '\n').getLast? = (rest.splitOn '\n').getLast? := by
    rw [List.getLast?_cons, List.getLast?_eq_some_getLast nonempty]
    rfl
  unfold lines
  simp only [String.toList_ofList, List.splitOn_append_cons_self, List.splitOn_eq_singleton plain,
    List.singleton_append, List.dropLast_cons_of_ne_nil nonempty, last, List.map_cons]
  split
  · rw [List.map_cons]
  · rw [List.cons_append, List.map_cons]

theorem lines_plain {line : String} (plain : '\n' ∉ line.toList) :
    lines line = if line = "" then [] else [line] := by
  unfold lines
  rw [List.splitOn_eq_singleton plain]
  by_cases empty : line = "" <;> simp [empty]

/-- The lines of a text are the ones it was put together from. -/
theorem lines_linesText {ended : List (String × LineEnd)} {last : String}
    (plain : ∀ line ∈ ended, PlainLine line.1) (plainLast : PlainLine last) :
    lines (linesText ended last) = ended.map Prod.fst ++ if last = "" then [] else [last] := by
  unfold linesText
  induction ended with
  | nil => simp [lines_plain plainLast.1]
  | cons line ended ih =>
    obtain ⟨text, lineEnd⟩ := line
    obtain ⟨noNewline, noReturn⟩ := plain (text, lineEnd) (by simp)
    have rest := ih fun line member => plain line (by simp [member])
    rw [List.flatMap_cons, List.map_cons, List.cons_append, ← rest]
    cases lineEnd with
    | lf =>
      have unended : text.toList.getLast? ≠ some '\r' := fun ended =>
        noReturn (List.mem_of_getLast? ended)
      simp only [LineEnd.chars, List.append_assoc, List.cons_append, List.nil_append]
      rw [lines_newline noNewline, if_neg unended, String.ofList_toList]
    | crlf =>
      have through : '\n' ∉ text.toList ++ ['\r'] := by simp [noNewline]
      simp only [LineEnd.chars, List.append_assoc, List.cons_append, List.nil_append]
      rw [List.append_cons, lines_newline through, if_pos (by simp), List.dropLast_concat,
        String.ofList_toList]

end XboxProxy.Misc
