import XboxProxy.Misc.ListUpdate
import XboxProxy.Misc.Run

/-!
# Components that write to a shared log

Any number of components, each with a state of its own, start and act in any order; what they
write goes to the end of one log, between the writings of parties that have no state. Seen
alone, a component takes its own actions one after the other. After any run each component is
where it would be alone, and the log is, up to order, what the components write alone and
what the other parties wrote: nothing is lost, repeated or written for another component.
-/

namespace XboxProxy.Misc

variable {Local Action Output : Type}

/-- What can happen next. -/
inductive Turn (Local Action Output : Type) where
  | spawn (init : Local)
  | emit (output : List Output)
  | act (k : Nat) (a : Action)

/-- The components, in the order they started, and the log. -/
structure Components (Local Output : Type) where
  locals : List Local
  log : List Output

namespace Turn

/-- The components that start, in their first states. -/
def spawned (turns : List (Turn Local Action Output)) : List Local :=
  turns.filterMap fun
    | .spawn init => some init
    | _ => none

/-- What the parties without a state write. -/
def emitted (turns : List (Turn Local Action Output)) : List Output :=
  turns.flatMap fun
    | .emit output => output
    | _ => []

/-- The actions of component `k`. -/
def own (k : Nat) (turns : List (Turn Local Action Output)) : List Action :=
  turns.filterMap fun
    | .act k' a => if k' = k then some a else none
    | _ => none

section
variable (turns : List (Turn Local Action Output))

theorem spawned_snoc_spawn (init : Local) :
    spawned (turns ++ [.spawn init]) = spawned turns ++ [init] := by simp [spawned]

theorem spawned_snoc_emit (output : List Output) :
    spawned (turns ++ [.emit output]) = spawned turns := by simp [spawned]

theorem spawned_snoc_act (k : Nat) (a : Action) :
    spawned (turns ++ [.act k a]) = spawned turns := by simp [spawned]

theorem emitted_snoc_spawn (init : Local) :
    emitted (turns ++ [.spawn init]) = emitted turns := by simp [emitted]

theorem emitted_snoc_emit (output : List Output) :
    emitted (turns ++ [.emit output]) = emitted turns ++ output := by simp [emitted]

theorem emitted_snoc_act (k : Nat) (a : Action) :
    emitted (turns ++ [.act k a]) = emitted turns := by simp [emitted]

theorem own_snoc_spawn (k : Nat) (init : Local) :
    own k (turns ++ [.spawn init]) = own k turns := by simp [own]

theorem own_snoc_emit (k : Nat) (output : List Output) :
    own k (turns ++ [.emit output]) = own k turns := by simp [own]

theorem own_snoc_act (k k' : Nat) (a : Action) :
    own k (turns ++ [.act k' a]) = own k turns ++ if k' = k then [a] else [] := by
  unfold own
  rw [List.filterMap_append]
  split <;> simp_all

end
end Turn

namespace Components
open Turn

variable (act : Local → Action → Option (Local × List Output))

/-- A component by itself: its state after its actions, and what it has written. -/
def alone : Local → List Action → Option (Local × List Output)
  | l, [] => some (l, [])
  | l, a :: as =>
    (act l a).bind fun one => (alone one.1 as).map fun rest => (rest.1, one.2 ++ rest.2)

theorem alone_snoc {l l' l'' : Local} {as : List Action} {a : Action} {written more : List Output}
    (before : alone act l as = some (l', written)) (acted : act l' a = some (l'', more)) :
    alone act l (as ++ [a]) = some (l'', written ++ more) := by
  induction as generalizing l written with
  | nil =>
    obtain ⟨rfl, rfl⟩ : l = l' ∧ [] = written := by simpa [alone] using before
    simp [alone, acted]
  | cons b as ih =>
    simp only [alone, Option.bind_eq_some_iff, Option.map_eq_some_iff, Prod.exists,
      Prod.mk.injEq] at before
    obtain ⟨m, first, acted', m', rest, later, rfl, rfl⟩ := before
    simp [alone, acted', ih later]

/-- One turn. -/
def step (s : Components Local Output) : Turn Local Action Output → Option (Components Local Output)
  | .spawn init => some { s with locals := s.locals ++ [init] }
  | .emit output => some { s with log := s.log ++ output }
  | .act k a =>
    s.locals[k]?.bind fun l => (act l a).map fun one =>
      ⟨s.locals.set k one.1, s.log ++ one.2⟩

def empty : Components Local Output := ⟨[], []⟩

/-- `parts` are the components by themselves: where each is after its own actions, and what it
has written. -/
structure Parts (turns : List (Turn Local Action Output)) (parts : List (Local × List Output)) :
    Prop where
  length : parts.length = (spawned turns).length
  alone : ∀ (k : Nat) (part : Local × List Output), parts[k]? = some part →
    ∃ init, (spawned turns)[k]? = some init ∧ alone act init (own k turns) = some part
  absent : ∀ k, parts.length ≤ k → own k turns = []

/-- The whole is the sum of its parts. -/
structure Splits (turns : List (Turn Local Action Output)) (s : Components Local Output)
    (parts : List (Local × List Output)) : Prop where
  each : Parts act turns parts
  locals : s.locals = parts.map Prod.fst
  log : s.log.Perm (emitted turns ++ parts.flatMap Prod.snd)

variable {act} {turns : List (Turn Local Action Output)} {s t : Components Local Output}
  {parts : List (Local × List Output)}

theorem Parts.spawn (each : Parts act turns parts) (init : Local) :
    Parts act (turns ++ [.spawn init]) (parts ++ [(init, [])]) := by
  constructor
  · rw [spawned_snoc_spawn, List.length_append, List.length_append, each.length]
    rfl
  · intro k part here
    rw [spawned_snoc_spawn, own_snoc_spawn]
    have bound := (List.getElem?_eq_some_iff.mp here).1
    rw [List.length_append, List.length_singleton] at bound
    by_cases old : k < parts.length
    · rw [List.getElem?_append_left old] at here
      rw [List.getElem?_append_left (each.length ▸ old)]
      exact each.alone k part here
    · obtain rfl : k = parts.length := by omega
      obtain rfl : (init, []) = part := by simpa using here
      rw [each.absent _ le_rfl, each.length]
      exact ⟨init, List.getElem?_concat_length, rfl⟩
  · intro k late
    rw [own_snoc_spawn]
    rw [List.length_append] at late
    exact each.absent k (Nat.le_of_add_right_le late)

theorem Parts.emit (each : Parts act turns parts) (output : List Output) :
    Parts act (turns ++ [.emit output]) parts := by
  constructor
  · rw [spawned_snoc_emit]
    exact each.length
  · intro k part here
    rw [spawned_snoc_emit, own_snoc_emit]
    exact each.alone k part here
  · intro k late
    rw [own_snoc_emit]
    exact each.absent k late

theorem Parts.acted (each : Parts act turns parts) {k : Nat} {part : Local × List Output}
    (here : parts[k]? = some part) {a : Action} {l : Local} {output : List Output}
    (ran : act part.1 a = some (l, output)) :
    Parts act (turns ++ [.act k a]) (parts.set k (l, part.2 ++ output)) := by
  have bound : k < parts.length := (List.getElem?_eq_some_iff.mp here).1
  constructor
  · rw [spawned_snoc_act, List.length_set]
    exact each.length
  · intro k' part' here'
    rw [spawned_snoc_act, own_snoc_act]
    by_cases same : k = k'
    · subst same
      obtain rfl : (l, part.2 ++ output) = part' := by
        simpa [List.getElem?_set_self bound] using here'
      obtain ⟨init, found, before⟩ := each.alone k part here
      rw [if_pos rfl]
      exact ⟨init, found, alone_snoc act before ran⟩
    · rw [List.getElem?_set_ne same] at here'
      rw [if_neg same, List.append_nil]
      exact each.alone k' part' here'
  · intro k' late
    rw [List.length_set] at late
    rw [own_snoc_act, if_neg (by omega), List.append_nil]
    exact each.absent k' late

theorem perm_append_append_comm (xs ys zs : List Output) :
    ((xs ++ ys) ++ zs).Perm ((xs ++ zs) ++ ys) := by
  rw [List.append_assoc, List.append_assoc]
  exact List.perm_append_comm.append_left xs

/-- What is written by component `k` comes out of the parts. -/
theorem flatMap_set_perm {k : Nat} {part : Local × List Output} (here : parts[k]? = some part)
    (l : Local) (output : List Output) :
    ((parts.set k (l, part.2 ++ output)).flatMap Prod.snd).Perm
      (parts.flatMap Prod.snd ++ output) := by
  have before := (perm_cons_eraseIdx here).flatMap_right Prod.snd
  have after := (perm_set here (l, part.2 ++ output)).flatMap_right Prod.snd
  rw [List.flatMap_cons] at before after
  exact after.trans ((perm_append_append_comm _ _ _).trans (before.symm.append_right output))

theorem Splits.step (splits : Splits act turns s parts) {turn : Turn Local Action Output}
    (stepped : Components.step act s turn = some t) :
    ∃ parts, Splits act (turns ++ [turn]) t parts := by
  cases turn with
  | spawn init =>
    obtain rfl := Option.some.inj stepped
    refine ⟨parts ++ [(init, [])], splits.each.spawn init, ?_, ?_⟩
    · rw [List.map_append, ← splits.locals]
      rfl
    · rw [emitted_snoc_spawn, List.flatMap_append]
      simpa using splits.log
  | emit output =>
    obtain rfl := Option.some.inj stepped
    refine ⟨parts, splits.each.emit output, splits.locals, ?_⟩
    rw [emitted_snoc_emit]
    exact (splits.log.append_right output).trans (perm_append_append_comm _ _ _)
  | act k a =>
    simp only [Components.step, Option.bind_eq_some_iff, Option.map_eq_some_iff, Prod.exists]
      at stepped
    obtain ⟨l, found, l', output, acted, rfl⟩ := stepped
    rw [splits.locals, List.getElem?_map, Option.map_eq_some_iff] at found
    obtain ⟨part, here, rfl⟩ := found
    refine ⟨parts.set k (l', part.2 ++ output), splits.each.acted here acted, ?_, ?_⟩
    · rw [List.map_set, ← splits.locals]
    · rw [emitted_snoc_act]
      calc s.log ++ output
        _ |>.Perm ((emitted turns ++ parts.flatMap Prod.snd) ++ output) :=
          splits.log.append_right output
        _ |>.Perm _ := by
          rw [List.append_assoc]
          exact (flatMap_set_perm here l' output).symm.append_left _

/-- After any run the whole is the sum of its parts. -/
theorem splits_of_run (reached : run (Components.step act) empty turns = some s) :
    ∃ parts, Splits act turns s parts := by
  induction turns using List.reverseRecOn generalizing s with
  | nil =>
    obtain rfl : empty = s := by simpa using reached
    exact ⟨[], ⟨rfl, fun k part here => by simp at here, fun k _ => rfl⟩, rfl, .nil⟩
  | append_singleton turns turn ih =>
    obtain ⟨t, before, stepped⟩ := run_snoc_eq_some.mp reached
    obtain ⟨parts, splits⟩ := ih before
    exact splits.step stepped

end Components
end XboxProxy.Misc
