import Mathlib
import XboxProxy.Misc.ListUpdate
import XboxProxy.Misc.Run

/-!
# Tasks that share read-write locks

A task takes and releases locks in the order its program says; a lock is shared by readers or
held by one writer, and is granted to those who wait for it in the order they came. Where every
program takes a lock only when its rank is above the ranks of the locks it holds, no set of
tasks waits for each other, and every task comes to its end after as many turns as its
program has operations.
-/

namespace XboxProxy.Misc

inductive LockMode where
  | read
  | write
  deriving DecidableEq

inductive LockOp (L : Type) where
  | acquire (l : L) (mode : LockMode)
  | release (l : L)
  deriving DecidableEq

/-- The guards a task holds, what it has left to do, and whether it stands in a queue. -/
structure LockTask (L : Type) where
  held : List (L × LockMode)
  todo : List (LockOp L)
  waiting : Bool
  deriving DecidableEq

/-- The tasks in the order they started, and for each lock those that wait for it. -/
structure LockSystem (L : Type) where
  tasks : List (LockTask L)
  queues : L → List Nat

inductive LockAction (L : Type) where
  | call (todo : List (LockOp L))
  /-- Task `k` gets a turn. -/
  | turn (k : Nat)
  /-- Task `k` is dropped, with its guards and its place in a queue. -/
  | drop (k : Nat)

/-- The ranks of the locks rise while they are held, and none is held in the end. -/
def Ascending {L : Type} [DecidableEq L] (rank : L → Nat) :
    List (L × LockMode) → List (LockOp L) → Prop
  | held, [] => held = []
  | held, .acquire l mode :: todo =>
    (∀ x ∈ held, rank x.1 < rank l) ∧ Ascending rank ((l, mode) :: held) todo
  | held, .release l :: todo => Ascending rank (held.eraseP fun x => x.1 = l) todo

/-- A program may follow one that gives back what it takes. -/
theorem ascending_append {L : Type} [DecidableEq L] {rank : L → Nat} {held : List (L × LockMode)}
    {first second : List (LockOp L)} (ascending : Ascending rank held first)
    (next : Ascending rank [] second) : Ascending rank held (first ++ second) := by
  induction first generalizing held with
  | nil =>
    obtain rfl : held = [] := ascending
    exact next
  | cons op first ih =>
    cases op with
    | acquire l mode => exact ⟨ascending.1, ih ascending.2⟩
    | release l =>
      show Ascending rank (held.eraseP fun x => x.1 = l) (first ++ second)
      exact ih ascending

theorem ascending_flatMap {L α : Type} [DecidableEq L] {rank : L → Nat} {l : List α}
    {program : α → List (LockOp L)} (ascending : ∀ x ∈ l, Ascending rank [] (program x)) :
    Ascending rank [] (l.flatMap program) := by
  induction l with
  | nil => rfl
  | cons x l ih =>
    rw [List.flatMap_cons]
    exact ascending_append (ascending x List.mem_cons_self)
      (ih fun y member => ascending y (List.mem_cons_of_mem x member))

namespace LockSystem

variable {L : Type} [DecidableEq L]

def start : LockSystem L := ⟨[], fun _ => []⟩

/-- Whoever holds `l` can share it with one who takes it in `mode`. -/
def Free (s : LockSystem L) (l : L) (mode : LockMode) : Prop :=
  ∀ t ∈ s.tasks, ∀ x ∈ t.held, x.1 = l → mode = .read ∧ x.2 = .read

instance (s : LockSystem L) (l : L) (mode : LockMode) : Decidable (s.Free l mode) :=
  inferInstanceAs (Decidable (∀ t ∈ s.tasks, ∀ x ∈ t.held, x.1 = l → mode = .read ∧ x.2 = .read))

def step (s : LockSystem L) : LockAction L → Option (LockSystem L)
  | .call todo => some { s with tasks := s.tasks ++ [⟨[], todo, false⟩] }
  | .turn k =>
    s.tasks[k]?.bind fun t =>
      match t.todo with
      | [] => none
      | .release l :: todo =>
        some { s with tasks := s.tasks.set k ⟨t.held.eraseP fun x => x.1 = l, todo, false⟩ }
      | .acquire l mode :: todo =>
        if t.waiting then
          if (s.queues l).head? = some k ∧ s.Free l mode then
            some ⟨s.tasks.set k ⟨(l, mode) :: t.held, todo, false⟩,
              Function.update s.queues l (s.queues l).tail⟩
          else none
        else
          some ⟨s.tasks.set k { t with waiting := true },
            Function.update s.queues l (s.queues l ++ [k])⟩
  | .drop k =>
    s.tasks[k]?.map fun _ => ⟨s.tasks.set k ⟨[], [], false⟩, fun l => (s.queues l).erase k⟩

/-- All tasks have come to their end. -/
def Finished (s : LockSystem L) : Prop := ∀ t ∈ s.tasks, t.todo = []

instance (s : LockSystem L) : Decidable s.Finished :=
  inferInstanceAs (Decidable (∀ t ∈ s.tasks, t.todo = []))

/-! ## What holds in every state -/

/-- Task `k` waits for `l`. -/
def WaitsFor (s : LockSystem L) (k : Nat) (l : L) : Prop :=
  ∃ t mode todo, s.tasks[k]? = some t ∧ t.waiting = true ∧ t.todo = .acquire l mode :: todo

/-- The programs are ascending, the queues hold those who wait, each once, and a lock that is
held for writing has one holder. -/
structure Valid (rank : L → Nat) (s : LockSystem L) : Prop where
  ascending : ∀ t ∈ s.tasks, Ascending rank t.held t.todo
  queued : ∀ l k, k ∈ s.queues l ↔ s.WaitsFor k l
  nodup : ∀ l, (s.queues l).Nodup
  exclusive : ∀ (l : L) (mode : LockMode) (k k' : Nat) (t t' : LockTask L),
    s.tasks[k]? = some t → s.tasks[k']? = some t' → (l, .write) ∈ t.held → (l, mode) ∈ t'.held →
    k = k'

/-- Everything a turn can do. -/
theorem turn_cases {s u : LockSystem L} {k : Nat} (stepped : step s (.turn k) = some u) :
    ∃ t, s.tasks[k]? = some t ∧
      ((∃ l todo, t.todo = .release l :: todo ∧
        u = { s with tasks := s.tasks.set k ⟨t.held.eraseP fun x => x.1 = l, todo, false⟩ }) ∨
      (∃ l mode todo, t.todo = .acquire l mode :: todo ∧ t.waiting = true ∧
        (s.queues l).head? = some k ∧ s.Free l mode ∧
        u = ⟨s.tasks.set k ⟨(l, mode) :: t.held, todo, false⟩,
          Function.update s.queues l (s.queues l).tail⟩) ∨
      ∃ l mode todo, t.todo = .acquire l mode :: todo ∧ t.waiting = false ∧
        u = ⟨s.tasks.set k { t with waiting := true },
          Function.update s.queues l (s.queues l ++ [k])⟩) := by
  obtain ⟨t, found, stepped⟩ := Option.bind_eq_some_iff.mp stepped
  refine ⟨t, found, ?_⟩
  cases program : t.todo with
  | nil => simp [program] at stepped
  | cons op todo =>
    rw [program] at stepped
    cases op with
    | release l => exact .inl ⟨l, todo, rfl, (Option.some.inj stepped).symm⟩
    | acquire l mode =>
      simp only at stepped
      cases waiting : t.waiting with
      | true =>
        rw [if_pos waiting] at stepped
        split at stepped
        · rename_i granted
          exact .inr (.inl ⟨l, mode, todo, rfl, rfl, granted.1, granted.2,
            (Option.some.inj stepped).symm⟩)
        · cases stepped
      | false =>
        rw [if_neg (by simp [waiting])] at stepped
        exact .inr (.inr ⟨l, mode, todo, rfl, rfl, (Option.some.inj stepped).symm⟩)

section Preserved
variable {rank : L → Nat} {s : LockSystem L} {k : Nat} {t t' : LockTask L}

omit [DecidableEq L] in
/-- Whom a change of task `k` leaves waiting. -/
theorem waitsFor_set (found : s.tasks[k]? = some t) (queues : L → List Nat) (j : Nat) (l : L) :
    WaitsFor ⟨s.tasks.set k t', queues⟩ j l ↔
      if j = k then t'.waiting = true ∧ ∃ mode todo, t'.todo = .acquire l mode :: todo
      else s.WaitsFor j l := by
  have bound := (List.getElem?_eq_some_iff.mp found).1
  unfold WaitsFor
  by_cases here : j = k
  · subst here
    simp [bound]
  · simp [here, List.getElem?_set_ne (Ne.symm here)]

theorem ascending_set (valid : s.Valid rank) (k : Nat) (keeps : Ascending rank t'.held t'.todo) :
    ∀ u ∈ s.tasks.set k t', Ascending rank u.held u.todo := by
  intro u member
  rcases List.mem_or_eq_of_mem_set member with old | rfl
  · exact valid.ascending u old
  · exact keeps

/-- Guards that a task gives up exclude nobody. -/
theorem exclusive_set (valid : s.Valid rank) (found : s.tasks[k]? = some t)
    (fewer : ∀ x ∈ t'.held, x ∈ t.held) (l : L) (mode : LockMode) (i j : Nat) (u u' : LockTask L)
    (first : (s.tasks.set k t')[i]? = some u) (second : (s.tasks.set k t')[j]? = some u')
    (writes : (l, .write) ∈ u.held) (holds : (l, mode) ∈ u'.held) : i = j := by
  have before : ∀ {i : Nat} {u : LockTask L} {x : L × LockMode},
      (s.tasks.set k t')[i]? = some u → x ∈ u.held →
      ∃ v, s.tasks[i]? = some v ∧ x ∈ v.held := by
    intro i u x here held
    rcases getElem?_set_cases here with ⟨rfl, rfl⟩ | old
    · exact ⟨t, found, fewer x held⟩
    · exact ⟨u, old, held⟩
  obtain ⟨v, first, writes⟩ := before first writes
  obtain ⟨v', second, holds⟩ := before second holds
  exact valid.exclusive l mode i j v v' first second writes holds

theorem Valid.call (valid : s.Valid rank) {todo : List (LockOp L)}
    (ascending : Ascending rank [] todo) :
    Valid rank { s with tasks := s.tasks ++ [⟨[], todo, false⟩] } where
  ascending u member := by
    rcases List.mem_append.mp member with old | new
    · exact valid.ascending u old
    · rw [List.mem_singleton.mp new]
      exact ascending
  queued l j := by
    rw [valid.queued]
    unfold WaitsFor
    constructor
    · rintro ⟨t, mode, rest, found, waits⟩
      exact ⟨t, mode, rest, List.getElem?_append_left
        (List.getElem?_eq_some_iff.mp found).1 ▸ found, waits⟩
    · rintro ⟨t, mode, rest, found, waiting, program⟩
      rw [List.getElem?_append] at found
      split at found
      · exact ⟨t, mode, rest, found, waiting, program⟩
      · have new := List.mem_singleton.mp (List.mem_of_getElem? found)
        rw [new] at waiting
        cases waiting
  nodup := valid.nodup
  exclusive l mode i j u u' first second writes holds := by
    have old : ∀ {i : Nat} {u : LockTask L} {x : L × LockMode},
        (s.tasks ++ [⟨[], todo, false⟩])[i]? = some u → x ∈ u.held → s.tasks[i]? = some u := by
      intro i u x here held
      rw [List.getElem?_append] at here
      split at here
      · exact here
      · rw [List.mem_singleton.mp (List.mem_of_getElem? here)] at held
        cases held
    exact valid.exclusive l mode i j u u' (old first writes) (old second holds) writes holds

theorem Valid.release (valid : s.Valid rank) (found : s.tasks[k]? = some t) {l : L}
    {todo : List (LockOp L)} (program : t.todo = .release l :: todo) :
    Valid rank { s with tasks := s.tasks.set k ⟨t.held.eraseP fun x => x.1 = l, todo, false⟩ } where
  ascending := by
    apply ascending_set valid
    have before := valid.ascending t (List.mem_of_getElem? found)
    rwa [program] at before
  queued l' j := by
    rw [valid.queued, waitsFor_set found]
    split
    · rename_i here
      subst here
      simp [WaitsFor, found, program]
    · rfl
  nodup := valid.nodup
  exclusive := exclusive_set valid found fun _ => List.mem_of_mem_eraseP

theorem Valid.enqueue (valid : s.Valid rank) (found : s.tasks[k]? = some t) {l : L}
    {mode : LockMode} {todo : List (LockOp L)} (program : t.todo = .acquire l mode :: todo)
    (fresh : t.waiting = false) :
    Valid rank ⟨s.tasks.set k { t with waiting := true },
      Function.update s.queues l (s.queues l ++ [k])⟩ := by
  have absent : ∀ l', k ∉ s.queues l' := by
    intro l' member
    obtain ⟨t', mode', rest, found', waiting, -⟩ := (valid.queued l' k).mp member
    obtain rfl := Option.some.inj (found.symm.trans found')
    rw [fresh] at waiting
    cases waiting
  refine ⟨?_, ?_, ?_, ?_⟩
  · exact ascending_set valid k (valid.ascending t (List.mem_of_getElem? found))
  · intro l' j
    rw [waitsFor_set found]
    dsimp only
    by_cases same : l' = l
    · subst same
      rw [Function.update_self, List.mem_append, List.mem_singleton]
      split
      · rename_i here
        simp [here, program]
      · rename_i other
        simp [other, valid.queued]
    · rw [Function.update_of_ne same]
      split
      · rename_i here
        subst here
        have differs : l ≠ l' := Ne.symm same
        simp [absent, program, differs]
      · exact valid.queued l' j
  · intro l'
    dsimp only
    by_cases same : l' = l
    · subst same
      rw [Function.update_self]
      rw [← List.concat_eq_append]
      exact (List.nodup_concat _ _).mpr ⟨absent l', valid.nodup l'⟩
    · rw [Function.update_of_ne same]
      exact valid.nodup l'
  · exact exclusive_set valid found fun _ => id

theorem Valid.grant (valid : s.Valid rank) (found : s.tasks[k]? = some t) {l : L}
    {mode : LockMode} {todo : List (LockOp L)} (program : t.todo = .acquire l mode :: todo)
    (first : (s.queues l).head? = some k) (free : s.Free l mode) :
    Valid rank ⟨s.tasks.set k ⟨(l, mode) :: t.held, todo, false⟩,
      Function.update s.queues l (s.queues l).tail⟩ := by
  obtain ⟨tail, queue⟩ := List.head?_eq_some_iff.mp first
  have nodup := valid.nodup l
  rw [queue, List.nodup_cons] at nodup
  refine ⟨?_, ?_, ?_, ?_⟩
  · apply ascending_set valid
    have before := valid.ascending t (List.mem_of_getElem? found)
    rw [program] at before
    exact before.2
  · intro l' j
    rw [waitsFor_set found]
    dsimp only
    by_cases same : l' = l
    · subst same
      rw [Function.update_self, queue, List.tail_cons]
      split
      · rename_i here
        simp [here, nodup.1]
      · rename_i other
        rw [← valid.queued, queue, List.mem_cons]
        simp [other]
    · rw [Function.update_of_ne same]
      split
      · rename_i here
        subst here
        rw [valid.queued]
        simp [WaitsFor, found, program, Ne.symm same]
      · exact valid.queued l' j
  · intro l'
    dsimp only
    by_cases same : l' = l
    · subst same
      rw [Function.update_self, queue]
      exact nodup.2
    · rw [Function.update_of_ne same]
      exact valid.nodup l'
  · intro l' mode' i j u u' first second writes holds
    -- the new guard shares with readers only, and a writer's guard with nobody
    have guard : ∀ {i : Nat} {u : LockTask L} {x : L × LockMode},
        (s.tasks.set k ⟨(l, mode) :: t.held, todo, false⟩)[i]? = some u → x ∈ u.held →
        i = k ∧ x = (l, mode) ∨ ∃ v, s.tasks[i]? = some v ∧ x ∈ v.held := by
      intro i u x here held
      rcases getElem?_set_cases here with ⟨rfl, rfl⟩ | old
      · rcases List.mem_cons.mp held with new | before
        · exact .inl ⟨rfl, new⟩
        · exact .inr ⟨t, found, before⟩
      · exact .inr ⟨u, old, held⟩
    rcases guard first writes with ⟨rfl, new⟩ | ⟨v, old, writes⟩ <;>
      rcases guard second holds with ⟨rfl, new'⟩ | ⟨v', old', holds⟩
    · rfl
    · obtain ⟨rfl, rfl⟩ := Prod.mk.inj new
      cases (free v' (List.mem_of_getElem? old') _ holds rfl).1
    · obtain ⟨rfl, rfl⟩ := Prod.mk.inj new'
      cases (free v (List.mem_of_getElem? old) _ writes rfl).2
    · exact valid.exclusive l' mode' i j v v' old old' writes holds

theorem Valid.drop (valid : s.Valid rank) (found : s.tasks[k]? = some t) :
    Valid rank ⟨s.tasks.set k ⟨[], [], false⟩, fun l => (s.queues l).erase k⟩ where
  ascending := ascending_set valid k rfl
  queued l j := by
    rw [waitsFor_set found, (valid.nodup l).mem_erase_iff]
    split
    · rename_i here
      simp [here]
    · rename_i other
      rw [valid.queued]
      simp [other]
  nodup l := (valid.nodup l).erase k
  exclusive := exclusive_set valid found fun x member => by cases member

theorem valid_step {a : LockAction L} {u : LockSystem L} (valid : s.Valid rank)
    (ascending : ∀ todo, a = .call todo → Ascending rank [] todo)
    (stepped : step s a = some u) : u.Valid rank := by
  cases a with
  | call todo =>
    obtain rfl := Option.some.inj stepped
    exact valid.call (ascending todo rfl)
  | turn k =>
    obtain ⟨t, found, ⟨l, todo, program, rfl⟩ | ⟨l, mode, todo, program, -, first, free, rfl⟩ |
      ⟨l, mode, todo, program, fresh, rfl⟩⟩ := turn_cases stepped
    · exact valid.release found program
    · exact valid.grant found program first free
    · exact valid.enqueue found program fresh
  | drop k =>
    obtain ⟨t, found, rfl⟩ := Option.map_eq_some_iff.mp stepped
    exact valid.drop found

end Preserved

theorem valid_start (rank : L → Nat) : (start : LockSystem L).Valid rank where
  ascending t member := by cases member
  queued l k := by simp [LockSystem.start, WaitsFor]
  nodup l := List.nodup_nil
  exclusive l mode k k' t t' found := by cases found

/-! ## Nobody waits for ever -/

/-- A task with something left to do that cannot take a turn stands in a queue. -/
theorem waitsFor_of_blocked {s : LockSystem L} {k : Nat} {t : LockTask L}
    (found : s.tasks[k]? = some t) (unfinished : t.todo ≠ []) (blocked : step s (.turn k) = none) :
    ∃ l, s.WaitsFor k l ∧ ∃ mode todo, t.todo = .acquire l mode :: todo := by
  simp only [step, found, Option.bind_some] at blocked
  cases program : t.todo with
  | nil => exact absurd program unfinished
  | cons op todo =>
    rw [program] at blocked
    cases op with
    | release l => cases blocked
    | acquire l mode =>
      simp only at blocked
      split at blocked
      · rename_i waiting
        exact ⟨l, ⟨t, mode, todo, found, waiting, program⟩, mode, todo, rfl⟩
      · cases blocked

/-- The rank of the lock that a task takes next. -/
def nextRank (rank : L → Nat) (t : LockTask L) : Nat :=
  match t.todo with
  | .acquire l _ :: _ => rank l
  | _ => 0

/-- A lock that somebody waits for and nobody gets has a holder, who waits for a higher one. -/
theorem Valid.exists_higher {rank : L → Nat} {s : LockSystem L} (valid : s.Valid rank)
    (blocked : ∀ k, step s (.turn k) = none) {k : Nat} {l : L} (waits : s.WaitsFor k l) :
    ∃ t ∈ s.tasks, t.todo ≠ [] ∧ rank l < nextRank rank t := by
  obtain ⟨first, rest, queue⟩ := List.exists_cons_of_ne_nil
    (List.ne_nil_of_mem ((valid.queued l k).mpr waits))
  obtain ⟨t, mode, todo, found, waiting, program⟩ :=
    (valid.queued l first).mp (queue ▸ List.mem_cons_self)
  have taken : ¬ s.Free l mode := by
    intro free
    have turn := blocked first
    simp [step, found, program, waiting, queue, free] at turn
  unfold Free at taken
  push Not at taken
  obtain ⟨holder, member, x, held, rfl, -⟩ := taken
  have ascending := valid.ascending holder member
  have unfinished : holder.todo ≠ [] := by
    intro done
    rw [done] at ascending
    have none : holder.held = [] := ascending
    rw [none] at held
    cases held
  obtain ⟨i, here⟩ := List.mem_iff_getElem?.mp member
  obtain ⟨l', -, mode', todo', program'⟩ := waitsFor_of_blocked here unfinished (blocked i)
  refine ⟨holder, member, unfinished, ?_⟩
  rw [program'] at ascending
  simp only [nextRank, program']
  exact ascending.1 x held

/-- Unless all tasks have come to their end, one of them can take a turn. -/
theorem Valid.exists_turn {rank : L → Nat} {s : LockSystem L} (valid : s.Valid rank) :
    s.Finished ∨ ∃ k, (step s (.turn k)).isSome := by
  by_contra stuck
  obtain ⟨unfinished, blocked⟩ := not_or.mp stuck
  have blocked : ∀ k, step s (.turn k) = none := fun k =>
    Option.not_isSome_iff_eq_none.mp fun enabled => blocked ⟨k, enabled⟩
  -- of the tasks with something left to do, one that waits for a lock of the highest rank
  let waiting := s.tasks.filter fun t => t.todo ≠ []
  have some : waiting ≠ [] := by
    intro none
    apply unfinished
    intro t member
    simpa using List.filter_eq_nil_iff.mp none t member
  obtain ⟨t, highest⟩ : ∃ t, waiting.argmax (nextRank rank) = Option.some t :=
    Option.ne_none_iff_exists'.mp (mt List.argmax_eq_none.mp some)
  obtain ⟨member, left⟩ := List.mem_filter.mp (List.argmax_mem highest)
  obtain ⟨k, found⟩ := List.mem_iff_getElem?.mp member
  obtain ⟨l, waits, mode, todo, program⟩ :=
    waitsFor_of_blocked found (by simpa using left) (blocked k)
  obtain ⟨holder, inTasks, left', higher⟩ := valid.exists_higher blocked waits
  have most := List.le_of_mem_argmax (List.mem_filter.mpr ⟨inTasks, by simpa using left'⟩) highest
  have here : nextRank rank t = rank l := by simp only [nextRank, program]
  omega

/-! ## Everybody comes to an end -/

/-- The turns an operation takes: a lock is asked for and then granted. -/
def cost : LockOp L → Nat
  | .acquire _ _ => 2
  | .release _ => 1

/-- The turns a program takes. -/
def programCost (todo : List (LockOp L)) : Nat := (todo.map cost).sum

/-- The turns a task has left. -/
def taskCost (t : LockTask L) : Nat :=
  match t.todo with
  | [] => 0
  | .release _ :: todo => 1 + programCost todo
  | .acquire _ _ :: todo => (if t.waiting then 1 else 2) + programCost todo

/-- The turns left before all tasks have come to their end. -/
def remaining (s : LockSystem L) : Nat := (s.tasks.map taskCost).sum

omit [DecidableEq L] in
theorem taskCost_fresh (held : List (L × LockMode)) (todo : List (LockOp L)) :
    taskCost ⟨held, todo, false⟩ = programCost todo := by
  cases todo with
  | nil => rfl
  | cons op todo => cases op <;> simp [taskCost, programCost, cost]

omit [DecidableEq L] in
theorem remaining_set {s : LockSystem L} {k : Nat} {t : LockTask L}
    (found : s.tasks[k]? = some t) (t' : LockTask L) (queues : L → List Nat) :
    remaining ⟨s.tasks.set k t', queues⟩ + taskCost t = remaining s + taskCost t' := by
  have before := ((perm_cons_eraseIdx found).map taskCost).sum_eq
  have after := ((perm_set found t').map taskCost).sum_eq
  simp only [List.map_cons, List.sum_cons] at before after
  dsimp only [remaining]
  omega

/-- A turn uses up one of those left. -/
theorem remaining_turn {s u : LockSystem L} {k : Nat} (stepped : step s (.turn k) = some u) :
    u.remaining + 1 = s.remaining := by
  obtain ⟨t, found, ⟨l, todo, program, rfl⟩ | ⟨l, mode, todo, program, waiting, -, -, rfl⟩ |
    ⟨l, mode, todo, program, fresh, rfl⟩⟩ := turn_cases stepped
  · have change := remaining_set found ⟨t.held.eraseP fun x => x.1 = l, todo, false⟩ s.queues
    have left : taskCost t = 1 + programCost todo := by simp only [taskCost, program]
    rw [taskCost_fresh] at change
    omega
  · have change := remaining_set found ⟨(l, mode) :: t.held, todo, false⟩
      (Function.update s.queues l (s.queues l).tail)
    have left : taskCost t = 1 + programCost todo := by simp [taskCost, program, waiting]
    rw [taskCost_fresh] at change
    omega
  · have change := remaining_set found { t with waiting := true }
      (Function.update s.queues l (s.queues l ++ [k]))
    have left : taskCost t = 2 + programCost todo := by simp [taskCost, program, fresh]
    have left' : taskCost { t with waiting := true } = 1 + programCost todo := by
      simp [taskCost, program]
    omega

theorem remaining_turns {s u : LockSystem L} {ks : List Nat}
    (ran : run step s (ks.map .turn) = some u) : ks.length + u.remaining = s.remaining := by
  induction ks generalizing s with
  | nil =>
    obtain rfl := Option.some.inj ran
    simp
  | cons k ks ih =>
    obtain ⟨t, stepped, rest⟩ := run_cons_eq_some.mp ran
    have left := ih rest
    have used := remaining_turn stepped
    rw [List.length_cons]
    omega

/-- In every state that calls of ascending programs lead to, no lock held for writing has a
second holder; and however turns are given from there, they are at most as many as are left,
and unless all tasks have come to their end another one can be given. -/
theorem run_spec {rank : L → Nat} {actions : List (LockAction L)} {s : LockSystem L}
    (ascending : ∀ todo, .call todo ∈ actions → Ascending rank [] todo)
    (reached : run step start actions = some s) :
    s.Valid rank ∧ ∀ (ks : List Nat) u, run step s (ks.map .turn) = some u →
      ks.length ≤ s.remaining ∧ (u.Finished ∨ ∃ k, (step u (.turn k)).isSome) := by
  have preserved : ∀ (s : LockSystem L) (a : LockAction L) (t : LockSystem L), s.Valid rank →
      (∀ todo, a = .call todo → Ascending rank [] todo) → step s a = some t → t.Valid rank :=
    fun s a t inv ok stepped => valid_step inv ok stepped
  have valid : s.Valid rank := by
    refine run_invariant_of_forall preserved (valid_start rank) ?_ reached
    rintro a member todo rfl
    exact ascending todo member
  refine ⟨valid, fun ks u ran => ?_⟩
  have left := remaining_turns ran
  have later : u.Valid rank := by
    refine run_invariant_of_forall preserved valid ?_ ran
    rintro a member todo rfl
    obtain ⟨k, -, same⟩ := List.mem_map.mp member
    cases same
  exact ⟨by omega, later.exists_turn⟩

end LockSystem
end XboxProxy.Misc
