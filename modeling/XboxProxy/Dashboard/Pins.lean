import XboxProxy.Selector

/-!
# The pin route of the dashboard (`src/dashboard.rs`, `templates/dashboard.html`)

`pin_group` with the body it reads and the JSON it answers, and the form that sends it.
-/

namespace XboxProxy
open Misc

/-- `PinGroupBody` (`dashboard.rs:148-153`). -/
structure PinGroupBody where
  name : String
  ip : Option String

/-- The JSON of `pin_group`: `ok` with the address as text, or a reason. -/
inductive PinGroupReply where
  | ok (ip : Option String)
  | refused (reason : String)
  deriving DecidableEq

/-- The text of a body, `None` when it is blank (`dashboard.rs:156`). -/
def PinGroupBody.text (body : PinGroupBody) : Option String :=
  (body.ip.map trim).filter (· ≠ "")

/-- The address a body asks for (`dashboard.rs:156-164`). -/
def PinGroupBody.target (body : PinGroupBody) : Except String (Option IpAddr) :=
  match body.text with
  | none => .ok none
  | some raw =>
    match IpAddr.parseV4 raw with
    | some ip => .ok (some ip)
    | none => .error "invalid_ip"

/-- The characters JavaScript's `trim` removes: a byte order mark is one, U+0085 is not. -/
def jsIsWhitespace (c : Char) : Bool :=
  c.toNat == 0xfeff || (isWhitespace c && c.toNat != 0x85)

/-- `String.prototype.trim`. -/
def jsTrim (s : String) : String :=
  String.ofList ((s.toList.dropWhile jsIsWhitespace).rdropWhile jsIsWhitespace)

/-- What the input of a group shows (`dashboard.html:331`). -/
def pinInput {F : Type} (h : HostState F) : String :=
  (h.pinnedIp.map IpAddr.toString).getD ""

/-- What the button of a group sends (`dashboard.html:182-188`). -/
def pinGroupPost (name value : String) : PinGroupBody where
  name
  ip := if jsTrim value = "" then none else some (jsTrim value)

namespace Dashboard

variable {F : Type}

/-- `pin_group` (`dashboard.rs:155-175`); `debug` is `{:?}` of a string. -/
def pinGroup (debug : String → String) (s : Selector F) (body : PinGroupBody) :
    PinGroupReply × Selector F :=
  match body.target with
  | .error reason => (.refused reason, s)
  | .ok ip =>
    match s.setPinnedIp body.name ip with
    | (.ok (), t) => (.ok (ip.map IpAddr.toString), t)
    | (.error e, t) => (.refused (e.message debug), t)

/-- What the selector of a running program is called with: posts to the pin route, and the
results of transfers and measurements. -/
inductive SelectorStep (F : Type) where
  | pinGroup (body : PinGroupBody)
  | updateResult (host : String) (ip : IpAddr) (latencyMs : Option Nat) (speedKbps : Option F)
      (success : Bool) (now : Nat)

/-- The state after a step; the reply of a post is dropped. -/
def step (debug : String → String) (s : Selector F) : SelectorStep F → Selector F
  | .pinGroup body => (pinGroup debug s body).2
  | .updateResult host ip latencyMs speedKbps success now =>
    s.updateResult host ip latencyMs speedKbps success now

/-- The state after steps taken one at a time. -/
def steps (debug : String → String) (s : Selector F) (taken : List (SelectorStep F)) :
    Selector F :=
  taken.foldl (step debug) s

end Dashboard
end XboxProxy
