import XboxProxy.Misc.Locks
import XboxProxy.Selector

/-!
# The locks of the selector (`src/selector.rs`)

Which locks a method takes, in which mode, and how long it keeps the guards. The searches of
the tables (`index_of`, `host_for`, `upstream_host_for`, `upstream_port`) take none. The locks
are `tokio::sync::RwLock`s: fair, first come first served.
-/

namespace XboxProxy
open Misc

/-- The two locks of a group (`selector.rs:65-70`). -/
inductive SelectorLock where
  | pinnedIp (g : Nat)
  | candidates (g : Nat)
  deriving DecidableEq

/-- A call of one of the methods that take locks. -/
inductive SelectorMethod where
  | bestIp (host : String)
  | updateResult (host : String)
  | markFailure (host : String)
  | setPinnedIp (name : String) (ip : Option IpAddr)
  | defForHost (host : String)
  | resolve (current : Option IpAddr) (host : String)
  | snapshot
  | defs

/-- A guard that is dropped when what it guards has been done. -/
def guarded (l : SelectorLock) (mode : LockMode) : List (LockOp SelectorLock) :=
  [.acquire l mode, .release l]

/-- The guard on the candidates of the group `index_of` finds. -/
def Selector.guardedCandidates {F : Type} (s : Selector F) (host : String) (mode : LockMode) :
    List (LockOp SelectorLock) :=
  match s.indexOf host with
  | none => []
  | some g => guarded (.candidates g) mode

/-- What a call does with the locks, in order. -/
def Selector.lockOps {F : Type} (s : Selector F) : SelectorMethod → List (LockOp SelectorLock)
  | .bestIp host => s.guardedCandidates host .read
  | .updateResult host => s.guardedCandidates host .write
  | .markFailure host => s.guardedCandidates host .write
  | .setPinnedIp name ip =>
    match s.pinTarget name ip with
    | .error _ => []
    -- a statement each: the first guard is gone before the second is asked for
    | .ok (g, _) => guarded (.pinnedIp g) .write ++ guarded (.candidates g) .write
  | .defForHost host => s.guardedCandidates host .read
  | .resolve current host =>
    if current.isNone && (s.hostFor host).isSome then s.guardedCandidates host .read else []
  | .snapshot =>
    (List.range s.hosts.length).flatMap fun g =>
      -- the pin is read while the guard on the candidates is alive
      .acquire (.candidates g) .read :: guarded (.pinnedIp g) .read ++ [.release (.candidates g)]
  | .defs => (List.range s.hosts.length).flatMap fun g => guarded (.candidates g) .read

/-- What the tasks of the program do: call a method, get a turn, or be dropped. -/
inductive SelectorTask where
  | call (m : SelectorMethod)
  | turn (k : Nat)
  | drop (k : Nat)

def SelectorTask.action {F : Type} (s : Selector F) : SelectorTask → LockAction SelectorLock
  | call m => .call (s.lockOps m)
  | turn k => .turn k
  | drop k => .drop k

end XboxProxy
