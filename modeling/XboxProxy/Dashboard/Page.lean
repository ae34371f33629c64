import XboxProxy.Dashboard.Queries
import XboxProxy.Misc.Html

/-!
# The tables of the dashboard (`templates/dashboard.html`)

The markup `load` assigns to the `innerHTML` of a row, from the JSON of `summary`. What turns
times and numbers into text is an argument: it depends on the browser's locale.
-/

namespace XboxProxy
open Misc Html

/-- The texts of times and numbers; none has markup in it. -/
structure Formats (F : Type) where
  /-- `fmtTime` (`dashboard.html:143`). -/
  fmtTime : Int → PlainText
  /-- A number in a template. -/
  number : Nat → PlainText
  /-- `Math.round(v).toLocaleString()`. -/
  rounded : F → PlainText
  /-- `v.toFixed(1)`. -/
  toFixed : F → PlainText

/-- Seconds, and numbers without separators. -/
def numerals : Formats ℚ where
  fmtTime ts := .ofString (toString ts)
  number n := .ofString (toString n)
  rounded v := .ofString (toString (v + 1 / 2).floor)
  toFixed v :=
    let tenths := (10 * v + 1 / 2).floor
    .ofString s!"{tenths / 10}.{tenths % 10}"

/-- `esc` on one code unit (`dashboard.html:149-151`). -/
def esc (c : UInt16) : Units :=
  if c = unit '&' then utf16 "&amp;"
  else if c = unit '<' then utf16 "&lt;"
  else if c = unit '>' then utf16 "&gt;"
  else if c = unit '"' then utf16 "&quot;"
  else if c = unit '\'' then utf16 "&#39;"
  else [c]

/-- `statusClass` (`dashboard.html:152`). -/
def statusClass (s : UInt16) : String :=
  if s ≥ 500 then "err" else if s ≥ 400 then "warn" else "ok"

/-- `${a ? "yes" : "no"}` and the like. -/
def choose (a : Bool) (yes no : String) : Piece := .markup (if a then yes else no)

/-- The `"-"` of an absent value. -/
def dash : PlainText := ⟨[unit '-'], by simp [unit]⟩

/-- `s || "-"`. -/
def orDash (s : Option String) : String := if s.getD "" = "" then "-" else s.getD ""

section
variable {F : Type} [Float64 F]

/-- The loop of `fmtBytes` (`dashboard.html:144-148`), over the units still to come. -/
def fmtBytesLoop : List String → String → F → F × String
  | [], u, v => (v, u)
  | next :: rest, u, v =>
    if Float64.ofNat 1024 ≤ v then fmtBytesLoop rest next (v / Float64.ofNat 1024) else (v, u)

/-- `fmtBytes`. -/
def fmtBytes (fmt : Formats F) (b : Nat) : List Piece :=
  let (v, u) := fmtBytesLoop ["KB", "MB", "GB"] "B" (Float64.ofNat b : F)
  [.plain (fmt.toFixed v), .markup (" " ++ u)]

/-- `${v ? Math.round(v).toLocaleString() : "-"}`; the API has `null` for an absent speed. -/
def speedText (fmt : Formats F) (v : Option F) : PlainText :=
  match v with
  | some v => if v = Float64.ofNat 0 then dash else fmt.rounded v
  | none => dash

/-- `${v ?? "-"}`. -/
def latencyText (fmt : Formats F) (v : Option Nat) : PlainText :=
  (v.map fmt.number).getD dash

/-- `<td>…</td>`, with the template's text up to the next cell. -/
def cell (opening content : List Piece) (after : String) : List Piece :=
  opening ++ content ++ [.markup ("</td>" ++ after)]

/-- A row of the groups' table (`dashboard.html:341-349`). -/
def hostRow (fmt : Formats F) (pinned : Bool) (h : HostState F) (c : CandidateState F)
    (i : Nat) : List Piece :=
  let isBest : List Piece :=
    if i = 0 then
      [choose pinned "<span class=\"badge\">pinned</span> " "<span class=\"badge\">best</span> "]
    else []
  List.flatten
    [cell [.markup "<td>"] [.escaped (if i = 0 then utf16 h.name else [])] "\n          ",
      cell [.markup "<td class=\"muted\">"]
        [.escaped (if i = 0 then utf16 (", ".intercalate h.domains) else [])] "\n          ",
      cell [.markup "<td>"] (isBest ++ [.escaped (utf16 c.ip.toString)]) "\n          ",
      cell [.markup "<td>"] [.plain (speedText fmt c.speedKbps)] "\n          ",
      cell [.markup "<td>"] [.plain (latencyText fmt c.latencyMs)] "\n          ",
      cell [.markup "<td class=\"", choose c.down "err" "ok", .markup "\">"]
        [choose c.down "down" "up"] ""]

/-- A row of the speed tests (`dashboard.html:358-361`). -/
def speedtestRow (fmt : Formats F) (s : SpeedTestRecord F) : List Piece :=
  List.flatten
    [cell [.markup "<td>"] [.plain (fmt.fmtTime s.ts)] "",
      cell [.markup "<td>"] [.escaped (utf16 s.host)] "",
      cell [.markup "<td>"] [.escaped (utf16 s.ip)] "\n        ",
      cell [.markup "<td>"] [.plain (latencyText fmt s.latencyMs)] "\n        ",
      cell [.markup "<td>"] [.plain (speedText fmt s.speedKbps)] "\n        ",
      cell [.markup "<td class=\"", choose s.success "ok" "err", .markup "\">"]
        [choose s.success "yes" "no"] ""]

/-- A row of the requests (`dashboard.html:372-380`). -/
def requestRow (fmt : Formats F) (r : RequestRecord F) : List Piece :=
  List.flatten
    [cell [.markup "<td>"] [.plain (fmt.fmtTime r.ts)] "",
      cell [.markup "<td>"] [.escaped (utf16 r.clientIp)] "",
      cell [.markup "<td>"] [.escaped (utf16 r.host)] "\n        ",
      cell [.markup "<td class=\"path\" title=\"", .escaped (utf16 r.path), .markup "\">"]
        [.escaped (utf16 r.method), .markup " ", .escaped (utf16 r.path)] "\n        ",
      cell [.markup "<td class=\"", .markup (statusClass r.status), .markup "\">"]
        [.plain (fmt.number r.status.toNat)] "\n        ",
      cell [.markup "<td>"] (fmtBytes fmt r.bytes) "\n        ",
      cell [.markup "<td>"] [.plain (speedText fmt (some r.throughputKbps))] "\n        ",
      cell [.markup "<td>"] [.plain (if r.ttfbMs = 0 then dash else fmt.number r.ttfbMs)]
        "\n        ",
      cell [.markup "<td>"] [.escaped (utf16 (orDash r.upstreamIp))] "\n        ",
      cell [.markup "<td class=\"muted\">"] [.escaped ((utf16 (r.error.getD "")).take 60)] ""]

/-- The rows of the three tables. -/
structure Tables (α : Type) where
  hosts : List α
  speedtests : List α
  requests : List α

/-- The same on every row. -/
def Tables.map {α β : Type} (f : α → β) (t : Tables α) : Tables β :=
  ⟨t.hosts.map f, t.speedtests.map f, t.requests.map f⟩

/-- The rows `load` appends (`dashboard.html:335-383`). -/
def Summary.rows (fmt : Formats F) (d : Summary F) : Tables (List Piece) where
  hosts := d.hosts.flatMap fun h =>
    (h.candidates.take 5).zipIdx.map fun (c, i) => hostRow fmt d.pinned h c i
  speedtests := d.recentSpeedtests.map (speedtestRow fmt)
  requests := d.recent.map (requestRow fmt)

/-- Their `innerHTML`. -/
def Summary.innerHTML (fmt : Formats F) (d : Summary F) : Tables Units :=
  (d.rows fmt).map (render esc)

end
end XboxProxy
