import XboxProxy.Misc.Run
import XboxProxy.Selector.Calls

/-!
# Overlapping selector calls

`set_pinned_ip` takes two locks one after the other. Here every acquisition of a lock is one
step, so a list of actions is an interleaving of any number of calls. What a call reads
before its first lock (`index_of`, `bundled_ips`) never changes. Dropping a call between its
two locks is left out: a call that has taken its first lock goes on or waits.
-/

namespace XboxProxy
open Misc

/-- The lock a `set_pinned_ip` call takes next. -/
inductive PinStage where
  | pinnedIp
  | candidates
  | returned
  deriving DecidableEq

/-- A `set_pinned_ip` call that found its group and its candidate list. -/
structure PinCall where
  index : Nat
  ip : Option IpAddr
  ips : List IpAddr
  stage : PinStage
  deriving DecidableEq

/-- The selector and the `set_pinned_ip` calls made so far, in the order they began. -/
structure Overlap (F : Type) where
  selector : Selector F
  calls : List PinCall

/-- One step of an interleaving; `resume k` lets call `k` take its next lock. -/
inductive OverlapAction (F : Type) where
  | setPinnedIp (name : String) (ip : Option IpAddr)
  | resume (k : Nat)
  | updateResult (host : String) (ip : IpAddr) (latencyMs : Option Nat) (speedKbps : Option F)
      (success : Bool) (now : Nat)
  | markFailure (host : String) (ip : IpAddr) (now : Nat)
  | bestIp (host : String) (now : Nat)

namespace Overlap

variable {F : Type}

def start (defs : List HostDef) (penalty : Nat) : Overlap F :=
  ⟨Selector.new defs penalty, []⟩

/-- `set_pinned_ip` up to its first lock (`selector.rs:219-229`). A call that fails returns
without having taken one. -/
def beginPin (s : Overlap F) (name : String) (ip : Option IpAddr) : Overlap F :=
  match s.selector.pinTarget name ip with
  | .error _ => s
  | .ok (index, ips) => { s with calls := s.calls ++ [⟨index, ip, ips, .pinnedIp⟩] }

/-- The next lock of call `k` (`selector.rs:230-231`). -/
def resume (s : Overlap F) (k : Nat) (c : PinCall) : Option (Overlap F) :=
  match c.stage with
  | .pinnedIp =>
    some ⟨s.selector.writePinnedIp c.index c.ip, s.calls.set k { c with stage := .candidates }⟩
  | .candidates =>
    some ⟨s.selector.writeCandidates c.index c.ips, s.calls.set k { c with stage := .returned }⟩
  | .returned => none

def step (s : Overlap F) : OverlapAction F → Option (Overlap F)
  | .setPinnedIp name ip => some (s.beginPin name ip)
  | .resume k => (s.calls[k]?).bind (s.resume k)
  | .updateResult host ip latencyMs speedKbps success now =>
    some { s with selector := s.selector.updateResult host ip latencyMs speedKbps success now }
  | .markFailure host ip now =>
    some { s with selector := s.selector.markFailure host ip now }
  -- a read lock: nothing is written
  | .bestIp _ _ => some s

/-- No `set_pinned_ip` call is in progress. -/
def Idle (s : Overlap F) : Prop := ∀ c ∈ s.calls, c.stage = .returned

/-- Everything one step can do. -/
theorem step_cases {s t : Overlap F} {a : OverlapAction F} (stepped : step s a = some t) :
    t = s ∨
    (∃ name ip index ips, s.selector.pinTarget name ip = .ok (index, ips) ∧
      t = { s with calls := s.calls ++ [⟨index, ip, ips, .pinnedIp⟩] }) ∨
    (∃ k c, a = .resume k ∧ s.calls[k]? = some c ∧ c.stage = .pinnedIp ∧
      t = ⟨s.selector.writePinnedIp c.index c.ip, s.calls.set k { c with stage := .candidates }⟩) ∨
    (∃ k c, a = .resume k ∧ s.calls[k]? = some c ∧ c.stage = .candidates ∧
      t = ⟨s.selector.writeCandidates c.index c.ips, s.calls.set k { c with stage := .returned }⟩) ∨
    (∃ host ip latencyMs speedKbps success now, t = { s with
      selector := s.selector.updateResult host ip latencyMs speedKbps success now }) := by
  cases a with
  | setPinnedIp name ip =>
    simp only [step, beginPin, Option.some.injEq] at stepped
    cases target : s.selector.pinTarget name ip with
    | error e =>
      rw [target] at stepped
      exact .inl stepped.symm
    | ok pair =>
      rw [target] at stepped
      exact .inr (.inl ⟨name, ip, pair.1, pair.2, target, stepped.symm⟩)
  | resume k =>
    simp only [step, Option.bind_eq_some_iff, resume] at stepped
    obtain ⟨c, found, stepped⟩ := stepped
    cases stage : c.stage with
    | pinnedIp =>
      simp only [stage, Option.some.injEq] at stepped
      exact .inr (.inr (.inl ⟨k, c, rfl, found, stage, stepped.symm⟩))
    | candidates =>
      simp only [stage, Option.some.injEq] at stepped
      exact .inr (.inr (.inr (.inl ⟨k, c, rfl, found, stage, stepped.symm⟩)))
    | returned => simp [stage] at stepped
  | updateResult host ip latencyMs speedKbps success now =>
    simp only [step, Option.some.injEq] at stepped
    exact .inr (.inr (.inr (.inr ⟨host, ip, latencyMs, speedKbps, success, now, stepped.symm⟩)))
  | markFailure host ip now =>
    simp only [step, Selector.markFailure, Option.some.injEq] at stepped
    exact .inr (.inr (.inr (.inr ⟨host, ip, none, none, false, now, stepped.symm⟩)))
  | bestIp host now =>
    simp only [step, Option.some.injEq] at stepped
    exact .inl stepped.symm

end Overlap
end XboxProxy
