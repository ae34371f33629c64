import XboxProxy.Http
import XboxProxy.Selector

/-!
# The dashboard's requests (`src/dashboard.rs`, `templates/dashboard.html`)
-/

namespace XboxProxy
open Misc

/-- `run_speedtest` up to its call of `trigger` (`dashboard.rs:90-113`): the override it
passes on, or the reason it answers with. `parse` is `str::parse::<Uri>`. -/
def runSpeedtest {F : Type} (parse : String → Option Uri) (selector : Selector F)
    (pinned isRunning : Bool) (url : Option String) : Except String (Option String) :=
  if pinned then .error "pinned"
  else if isRunning then .error "already_running"
  else
    match (url.map trim).filter (· ≠ "") with
    | none => .ok none
    | some raw =>
      match parse raw with
      | none => .error "invalid_url"
      | some uri =>
        match selector.hostFor (uri.host.getD "") with
        | none => .error "unknown_host"
        | some _ => .ok (some raw)

/-- `host.replace(/\.xboxlive\.com$/i, ".xboxlive.cn")`. -/
def replaceXboxliveCom (host : String) : String :=
  if endsWith (toAsciiLowercase host) ".xboxlive.com" then
    String.ofList (host.toList.take (host.toList.length - ".xboxlive.com".toList.length)) ++
      ".xboxlive.cn"
  else host

/-- `speedtestUrlFromRequest` (`dashboard.html:153-158`), on the host and the path of a
request. -/
def speedtestUrlFromRequest (host path : String) : String :=
  let host := replaceXboxliveCom host
  let path := if path = "" then "/" else path
  let path := if path.toList.head? = some '/' then path else "/" ++ path
  "http://" ++ host ++ path

example : speedtestUrlFromRequest "D1.XboxLive.com" "/a" = "http://D1.xboxlive.cn/a" := by decide

end XboxProxy
