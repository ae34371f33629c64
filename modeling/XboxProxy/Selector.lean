import XboxProxy.Misc.Float64
import XboxProxy.Misc.ListUpdate
import XboxProxy.Misc.Ranking
import XboxProxy.Net

/-!
# The CDN selector (`src/selector.rs`)

Groups of candidate addresses, the host tables that route to them, and the ranking of the
candidates. A method that takes a lock is a function of the state it locks; the clock it
reads (`now_unix`, whole seconds) is an argument. `index_of`, `host_for` and
`upstream_host_for` read only the immutable definitions.
-/

namespace XboxProxy
open Misc

/-- `u32::MAX`, where `saturating_add` on `fails` stops. -/
def u32Max : Nat := 2 ^ 32 - 1

/-- `HostDef` (`selector.rs:11-21`). -/
structure HostDef where
  name : String
  /-- Accepted client domains paired with the upstream Host to send to the CDN. -/
  domainMap : List (String × String)
  ips : List IpAddr
  upstreamPort : UInt16
  testUrl : String
  deriving DecidableEq

/-- A definition the program can route by: at least one address, none of them twice. -/
def HostDef.WellFormed (d : HostDef) : Prop := d.ips ≠ [] ∧ d.ips.Nodup

instance (d : HostDef) : Decidable d.WellFormed :=
  inferInstanceAs (Decidable (d.ips ≠ [] ∧ d.ips.Nodup))

/-- The group of the unit tests (`selector.rs:326-334`). -/
def testDef (ips : List IpAddr) : HostDef where
  name := "t"
  domainMap := [("cdn.example.com", "cdn.example.com")]
  ips
  upstreamPort := 80
  testUrl := "http://cdn.example.com/test"

/-- `CandidateState` (`selector.rs:35-43`); the time stamps are `u64` seconds. -/
structure CandidateState (F : Type) where
  ip : IpAddr
  latencyMs : Option Nat
  speedKbps : Option F
  lastOkTs : Nat
  lastFailTs : Nat
  fails : Nat
  down : Bool
  deriving DecidableEq

/-- `HostState` (`selector.rs:46-53`), the dashboard's view of a group. -/
structure HostState (F : Type) where
  name : String
  domains : List String
  upstreamPort : UInt16
  candidates : List (CandidateState F)
  pinnedIp : Option IpAddr

/-- `HostStateInner` (`selector.rs:65-70`); `pinned_ip` and `candidates` have a lock each. -/
structure HostStateInner (F : Type) where
  hostDef : HostDef
  bundledIps : List IpAddr
  pinnedIp : Option IpAddr
  candidates : List (CandidateState F)

/-- `Selector`, with `failure_penalty` in whole seconds as `as_secs` reads it. -/
structure Selector (F : Type) where
  hosts : List (HostStateInner F)
  failurePenalty : Nat

/-- `std::net::SocketAddr`. -/
structure SocketAddr where
  ip : IpAddr
  port : UInt16
  deriving DecidableEq

/-- The errors of `set_pinned_ip`. -/
inductive SelectorError where
  | unknownGroup (name : String)
  | noIpsToRestore (name : String)
  deriving DecidableEq

/-- The text of an error; `debug` is the standard library's `{:?}` of a string. -/
def SelectorError.message (debug : String → String) : SelectorError → String
  | unknownGroup name => s!"unknown group {debug name}"
  | noIpsToRestore name => s!"no IPs to restore for {name}"

/-- `normalize_host` (`selector.rs:318-320`). -/
def normalizeHost (host : String) : String :=
  toAsciiLowercase (trimEndMatches '.' host)

/-- The comparison all three lookups make for one row of a domain map; `host` is
normalized by the caller. -/
def rowMatches (host : String) (row : String × String) : Bool :=
  decide (DotSuffix (normalizeHost row.1) host)

section Float
variable {F : Type} [Float64 F]

/-- `score_at` (`selector.rs:309-316`). -/
def scoreAt (c : CandidateState F) (now penalty : Nat) : F :=
  let speed := c.speedKbps.getD (Float64.ofNat 0)
  let latency := Float64.ofNat (F := F) (c.latencyMs.getD 0)
  if c.down && now - c.lastFailTs ≤ penalty then Float64.minFinite
  else speed * Float64.ofNat 1000 - latency

end Float

namespace Selector

variable {F : Type}

/-- `fresh_candidates` (`selector.rs:203-215`). -/
def freshCandidates (ips : List IpAddr) : List (CandidateState F) :=
  ips.map fun ip =>
    { ip, latencyMs := none, speedKbps := none, lastOkTs := 0, lastFailTs := 0, fails := 0,
      down := false }

/-- `Selector::new` (`selector.rs:73-89`). -/
def new (defs : List HostDef) (failurePenalty : Nat) : Selector F where
  hosts := defs.map fun hostDef =>
    { hostDef, bundledIps := hostDef.ips, pinnedIp := none
      candidates := freshCandidates hostDef.ips }
  failurePenalty

/-- `host_for` (`selector.rs:91-102`). -/
def hostFor (s : Selector F) (host : String) : Option HostDef :=
  let host := normalizeHost host
  s.hosts.findSome? fun h =>
    h.hostDef.domainMap.findSome? fun row => if rowMatches host row then some h.hostDef else none

/-- `upstream_host_for` (`selector.rs:106-117`). -/
def upstreamHostFor (s : Selector F) (host : String) : Option String :=
  let host := normalizeHost host
  s.hosts.findSome? fun h =>
    h.hostDef.domainMap.findSome? fun row => if rowMatches host row then some row.2 else none

/-- `index_of` (`selector.rs:119-133`): unlike the other two it also accepts group names. -/
def indexOf (s : Selector F) (host : String) : Option Nat :=
  let host := normalizeHost host
  s.hosts.findIdx? fun h =>
    eqIgnoreAsciiCase h.hostDef.name host || h.hostDef.domainMap.any (rowMatches host)

/-- The state `index_of` leads to, `&self.inner.hosts[i]`. -/
def innerFor (s : Selector F) (host : String) : Option (HostStateInner F) :=
  (s.indexOf host).bind fun i => s.hosts[i]?

/-- The address a group routes to (`selector.rs:138-159`): the candidates without a recent
failure, or all of them when there is none, ranked by `max_by`. -/
def bestCandidate [Float64 F] (cands : List (CandidateState F)) (now penalty : Nat) :
    Option (CandidateState F) :=
  let healthy := cands.filter fun c => penalty < now - c.lastFailTs
  let pool := if healthy.isEmpty then cands else healthy
  maxBy (fun a b => compare (scoreAt a now penalty) (scoreAt b now penalty)) pool

/-- `best_ip` (`selector.rs:135-160`). -/
def bestIp [Float64 F] (s : Selector F) (host : String) (now : Nat) : Option IpAddr := do
  let inner ← s.innerFor host
  let best ← bestCandidate inner.candidates now s.failurePenalty
  return best.ip

/-- `upstream_port` (`selector.rs:163-166`). -/
def upstreamPort (s : Selector F) (host : String) : Option UInt16 :=
  (s.innerFor host).map (·.hostDef.upstreamPort)

/-- The write `update_result` makes to the candidate it finds (`selector.rs:180-195`). -/
def recordResult (penalty : Nat) (latencyMs : Option Nat) (speedKbps : Option F)
    (success : Bool) (now : Nat) (c : CandidateState F) : CandidateState F :=
  let c :=
    if success then
      { c with
        latencyMs := if latencyMs.isSome then latencyMs else c.latencyMs
        speedKbps := if speedKbps.isSome then speedKbps else c.speedKbps
        lastOkTs := now
        fails := 0 }
    else { c with lastFailTs := now, fails := min (c.fails + 1) u32Max }
  { c with down := decide (now - c.lastFailTs ≤ penalty) && decide (0 < c.fails) }

/-- A write to the state of group `i`. -/
def modifyGroup (s : Selector F) (i : Nat) (f : HostStateInner F → HostStateInner F) :
    Selector F :=
  { s with hosts := s.hosts.modify i f }

/-- `update_result` (`selector.rs:168-197`), one critical section on `candidates`. -/
def updateResult (s : Selector F) (host : String) (ip : IpAddr) (latencyMs : Option Nat)
    (speedKbps : Option F) (success : Bool) (now : Nat) : Selector F :=
  match s.indexOf host with
  | none => s
  | some i =>
    s.modifyGroup i fun h =>
      { h with
        candidates := modifyFirst (fun c => c.ip == ip)
          (recordResult s.failurePenalty latencyMs speedKbps success now) h.candidates }

/-- `mark_failure` (`selector.rs:199-201`). -/
def markFailure (s : Selector F) (host : String) (ip : IpAddr) (now : Nat) : Selector F :=
  s.updateResult host ip none none false now

/-- The candidate list a pin leads to (`selector.rs:223-226`). -/
def pinIps (bundledIps : List IpAddr) : Option IpAddr → List IpAddr
  | some ip => [ip]
  | none => bundledIps

/-- What `set_pinned_ip` does before it takes a lock (`selector.rs:219-229`): the group and
the new candidate list, or the error. -/
def pinTarget (s : Selector F) (name : String) (ip : Option IpAddr) :
    Except SelectorError (Nat × List IpAddr) :=
  match s.indexOf name with
  | none => .error (.unknownGroup name)
  | some i =>
    let ips := pinIps (((s.hosts[i]?).map (·.bundledIps)).getD []) ip
    if ips.isEmpty then .error (.noIpsToRestore name) else .ok (i, ips)

/-- The critical section on `pinned_ip` (`selector.rs:230`). -/
def writePinnedIp (s : Selector F) (i : Nat) (ip : Option IpAddr) : Selector F :=
  s.modifyGroup i fun h => { h with pinnedIp := ip }

/-- The critical section on `candidates` (`selector.rs:231`). -/
def writeCandidates (s : Selector F) (i : Nat) (ips : List IpAddr) : Selector F :=
  s.modifyGroup i fun h => { h with candidates := freshCandidates ips }

/-- `set_pinned_ip` (`selector.rs:218-233`) with nothing running between its two writes. -/
def setPinnedIp (s : Selector F) (name : String) (ip : Option IpAddr) :
    Except SelectorError Unit × Selector F :=
  match s.pinTarget name ip with
  | .error e => (.error e, s)
  | .ok (i, ips) => (.ok (), (s.writePinnedIp i ip).writeCandidates i ips)

/-- The definition of a group with its live addresses (`selector.rs:239-241`, `300-302`). -/
def liveDef (h : HostStateInner F) : HostDef :=
  { h.hostDef with ips := h.candidates.map (·.ip) }

/-- `def_for_host` (`selector.rs:236-242`). -/
def defForHost (s : Selector F) (host : String) : Option HostDef :=
  (s.innerFor host).map liveDef

/-- `defs` (`selector.rs:297-305`). -/
def defs (s : Selector F) : List HostDef :=
  s.hosts.map liveDef

/-- `resolve` (`selector.rs:244-263`); `current` is the task-local `CURRENT_IP`. -/
def resolve [Float64 F] (s : Selector F) (current : Option IpAddr) (host : String)
    (port : UInt16) (now : Nat) : Except String SocketAddr :=
  let notFound := s!"no managed endpoint candidate for {host}:{port}"
  match current with
  | some ip => .ok ⟨ip, port⟩
  | none =>
    if (s.hostFor host).isSome then
      match s.bestIp host now with
      | some ip => .ok ⟨ip, (s.upstreamPort host).getD port⟩
      | none => .error notFound
    else .error notFound

/-- The entry of `snapshot` for one group (`selector.rs:268-292`). -/
def snapshotGroup [Float64 F] (h : HostStateInner F) (now penalty : Nat) : HostState F :=
  let refreshed := h.candidates.map fun c =>
    { c with down := c.down && decide (now - c.lastFailTs ≤ penalty) }
  { name := h.hostDef.name
    domains := h.hostDef.domainMap.map (·.1)
    upstreamPort := h.hostDef.upstreamPort
    candidates := refreshed.insertionSort fun a b => scoreAt b now penalty ≤ scoreAt a now penalty
    pinnedIp := h.pinnedIp }

/-- `snapshot` (`selector.rs:265-295`); each group reads the clock for itself. -/
def snapshot [Float64 F] (s : Selector F) (clock : Nat → Nat) : List (HostState F) :=
  s.hosts.mapIdx fun i h => snapshotGroup h (clock i) s.failurePenalty

end Selector
end XboxProxy
