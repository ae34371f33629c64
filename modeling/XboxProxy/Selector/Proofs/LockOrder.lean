import XboxProxy.Proxy.Proofs.DistinctAttempts
import XboxProxy.Selector.Locks

/-!
# No deadlock in the selector

Only `snapshot` takes a lock while it holds another: the pin of a group under the guard on its
candidates. Nothing takes them the other way round, so however the calls of requests, passes
and the dashboard overlap, they all return.
-/

namespace XboxProxy
open Misc

/-- Candidates come before pins. -/
def SelectorLock.rank : SelectorLock → Nat
  | candidates _ => 0
  | pinnedIp _ => 1

theorem ascending_guarded (l : SelectorLock) (mode : LockMode) :
    Ascending SelectorLock.rank [] (guarded l mode) := by
  simp [guarded, Ascending]

namespace Selector
variable {F : Type}

theorem ascending_guardedCandidates (s : Selector F) (host : String) (mode : LockMode) :
    Ascending SelectorLock.rank [] (s.guardedCandidates host mode) := by
  unfold guardedCandidates
  split
  · rfl
  · exact ascending_guarded _ mode

/-- Every method takes the locks in the order of their ranks and gives them all back. -/
theorem ascending_lockOps (s : Selector F) (m : SelectorMethod) :
    Ascending SelectorLock.rank [] (s.lockOps m) := by
  cases m with
  | bestIp host => exact s.ascending_guardedCandidates host .read
  | updateResult host => exact s.ascending_guardedCandidates host .write
  | markFailure host => exact s.ascending_guardedCandidates host .write
  | setPinnedIp name ip =>
    unfold lockOps
    simp only
    split
    · rfl
    · exact ascending_append (ascending_guarded _ _) (ascending_guarded _ _)
  | defForHost host => exact s.ascending_guardedCandidates host .read
  | resolve current host =>
    unfold lockOps
    simp only
    split
    · exact s.ascending_guardedCandidates host .read
    · rfl
  | snapshot =>
    refine ascending_flatMap fun g _ => ?_
    -- the pin is taken last and given back first
    simp [guarded, Ascending, SelectorLock.rank]
  | defs => exact ascending_flatMap fun g _ => ascending_guarded _ _

/-- The groups decide which locks a method takes, and no call changes them. -/
theorem SameGroups.lockOps {s t : Selector F} (same : SameGroups s t) (m : SelectorMethod) :
    s.lockOps m = t.lockOps m := by
  have length : s.hosts.length = t.hosts.length := by
    simpa using congrArg List.length same.fixed
  have guards : ∀ host mode, s.guardedCandidates host mode = t.guardedCandidates host mode :=
    fun host mode => by
      unfold guardedCandidates
      rw [same.indexOf]
  cases m with
  | setPinnedIp name ip => simp only [Selector.lockOps, same.pinTarget]
  | resolve current host => simp only [Selector.lockOps, same.hostFor, guards]
  | snapshot => simp only [Selector.lockOps, length]
  | defs => simp only [Selector.lockOps, length]
  | _ => exact guards _ _

/-- Calls of any methods, made, advanced and dropped in any order: while a task writes, no
other one holds the lock; some task can always go on until all have returned; and they all
return after at most as many turns as their programs have left. -/
theorem calls_return (s : Selector F) (tasks : List SelectorTask) (t : LockSystem SelectorLock)
    (reached : run LockSystem.step .start (tasks.map (·.action s)) = some t) :
    (∀ (l : SelectorLock) (mode : LockMode) (k k' : Nat) (u u' : LockTask SelectorLock),
      t.tasks[k]? = some u → t.tasks[k']? = some u' → (l, .write) ∈ u.held → (l, mode) ∈ u'.held →
      k = k') ∧
    ∀ (turns : List Nat) (u : LockSystem SelectorLock),
      run LockSystem.step t (turns.map .turn) = some u →
      turns.length ≤ t.remaining ∧
        (u.Finished ∨ ∃ k, (LockSystem.step u (.turn k)).isSome) := by
  have ascending : ∀ todo, .call todo ∈ tasks.map (·.action s) →
      Ascending SelectorLock.rank [] todo := by
    intro todo member
    obtain ⟨task, -, call⟩ := List.mem_map.mp member
    cases task with
    | call m =>
      cases call
      exact s.ascending_lockOps m
    | turn k => cases call
    | drop k => cases call
  obtain ⟨valid, returns⟩ := LockSystem.run_spec ascending reached
  exact ⟨valid.exclusive, returns⟩

/-- A snapshot waits for a pin that is being written, with the guard the writer needs next. -/
def crossing : List SelectorTask :=
  [.call .snapshot, .turn 0, .turn 0, .call (.setPinnedIp "t" none), .turn 1, .turn 1, .turn 0,
    .call (.bestIp "cdn.example.com"), .turn 2, .turn 1, .turn 1]

def crossingActions : List (LockAction SelectorLock) :=
  crossing.map (·.action (Selector.new (F := ℚ) [testDef [.v4 1 1 1 1]] 60))

def crossed : LockSystem SelectorLock :=
  (run LockSystem.step .start crossingActions).getD .start

theorem calls_return_crossing :
    crossed.queues (.pinnedIp 0) = [0] ∧ crossed.queues (.candidates 0) = [2, 1] ∧
      ∃ k, (LockSystem.step crossed (.turn k)).isSome := by
  refine ⟨by decide +kernel, by decide +kernel, ?_⟩
  have reached : run LockSystem.step .start crossingActions = some crossed := rfl
  have unfinished : ¬ crossed.Finished := by decide +kernel
  exact (((calls_return _ crossing crossed reached).2 [] crossed rfl).2).resolve_left unfinished

end Selector
end XboxProxy
