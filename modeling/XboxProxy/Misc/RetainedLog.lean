import Mathlib.Data.List.Induction

/-!
# A log with retention

Commands either add an entry to a log or let entries expire. `retained` is what is left of a
list of commands: the entries that no later command has let expire, oldest first. A store
holds the retained log after any run if each of its steps does to its contents what one
command does to the log.
-/

namespace XboxProxy.Misc

variable {Command Entry State : Type}

/-- What commands do to the log: at most one entry is added, and some expire. -/
structure LogPolicy (Command Entry : Type) where
  added : Command → Option Entry
  expires : Command → Entry → Bool

namespace LogPolicy

variable (policy : LogPolicy Command Entry)

/-- The entries that have been added and that no later command lets expire. -/
def retained : List Command → List Entry
  | [] => []
  | c :: later =>
    ((policy.added c).filter fun e => !later.any fun c' => policy.expires c' e).toList ++
      retained later

/-- What one command does to the log. -/
def advance (c : Command) (log : List Entry) : List Entry :=
  (log.filter fun e => !policy.expires c e) ++ (policy.added c).toList

theorem retained_snoc (cs : List Command) (c : Command) :
    policy.retained (cs ++ [c]) = policy.advance c (policy.retained cs) := by
  induction cs with
  | nil =>
    unfold advance
    cases added : policy.added c <;> simp [retained, added]
  | cons c' cs ih =>
    unfold advance at ih ⊢
    rw [List.cons_append, retained, retained, ih, List.filter_append, List.append_assoc]
    congr 1
    cases policy.added c' with
    | none => rfl
    | some e =>
      simp only [List.any_append, List.any_cons, List.any_nil, Bool.or_false]
      cases stays : cs.any fun c' => policy.expires c' e <;>
        cases gone : policy.expires c e <;> simp [Option.filter, stays, gone]

/-- What is retained was added by one of the commands. -/
theorem added_of_mem_retained {cs : List Command} {e : Entry}
    (member : e ∈ policy.retained cs) : ∃ c ∈ cs, policy.added c = some e := by
  induction cs with
  | nil => exact absurd member List.not_mem_nil
  | cons c cs ih =>
    rw [retained, List.mem_append, Option.mem_toList, Option.filter_eq_some_iff] at member
    rcases member with ⟨added, -⟩ | later
    · exact ⟨c, List.mem_cons_self, added⟩
    · obtain ⟨c', member, added⟩ := ih later
      exact ⟨c', List.mem_cons_of_mem c member, added⟩

/-- Where no entry that satisfies `p` ever expires, nothing with `p` is missing. -/
theorem filter_retained {p : Entry → Bool} {cs : List Command}
    (stays : ∀ c ∈ cs, ∀ e, p e = true → policy.expires c e = false) :
    (policy.retained cs).filter p = (cs.filterMap policy.added).filter p := by
  induction cs with
  | nil => rfl
  | cons c cs ih =>
    have rest := ih fun c' member => stays c' (List.mem_cons_of_mem c member)
    rw [retained, List.filter_append, rest, List.filterMap_cons]
    cases policy.added c with
    | none => rfl
    | some e =>
      cases here : p e with
      | false =>
        cases cs.any fun c' => policy.expires c' e <;> simp [Option.filter, here]
      | true =>
        have kept : (cs.any fun c' => policy.expires c' e) = false := by
          rw [List.any_eq_false]
          intro c' member
          rw [stays c' (List.mem_cons_of_mem c member) e here]
          exact Bool.false_ne_true
        simp [Option.filter, here, kept]

/-- The refinement rule: a store whose steps advance what it holds holds what is retained. -/
theorem holds_retained {step : State → Command → State} {Holds : State → List Entry → Prop}
    {start : State} (empty : Holds start [])
    (advances : ∀ s log c, Holds s log → Holds (step s c) (policy.advance c log))
    (cs : List Command) : Holds (cs.foldl step start) (policy.retained cs) := by
  induction cs using List.reverseRecOn with
  | nil => exact empty
  | append_singleton cs c ih =>
    rw [List.foldl_append, retained_snoc]
    exact advances _ _ c ih

end LogPolicy
end XboxProxy.Misc
