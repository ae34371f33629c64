import XboxProxy.Dashboard.Page

/-!
# What a browser reads in the tables

Whatever a record, a host name or an address contains, the markup of its row is read as the
cells of the template with that text in them.
-/

namespace XboxProxy
open Misc Html

theorem escapes_esc : Escapes esc := by
  intro c
  unfold esc
  split_ifs with ampersand less greater quote apostrophe
  · exact .inl ⟨utf16 "amp", by rw [ampersand]; rfl, rfl⟩
  · exact .inl ⟨utf16 "lt", by rw [less]; rfl, rfl⟩
  · exact .inl ⟨utf16 "gt", by rw [greater]; rfl, rfl⟩
  · exact .inl ⟨utf16 "quot", by rw [quote]; rfl, rfl⟩
  · exact .inl ⟨utf16 "#39", by rw [apostrophe]; rfl, rfl⟩
  · exact .inr ⟨rfl, ampersand, less, quote⟩

/-! ## Cells -/

/-- Characters of a text. -/
def text (cs : Units) : List Token := cs.map .char

/-- A string of the API as a cell shows it. -/
def shown (s : Units) : List Token := text (normalizeNewlines s)

/-- A cell, and the text up to the next one. -/
def td (attrs : List (Units × Units)) (content : List Token) (after : String) : List Token :=
  .startTag (utf16 "td") attrs :: content ++ .endTag (utf16 "td") :: text (utf16 after)

/-- What stands between two cells leaves the tags as they are. -/
def Closes (after : String) : Prop :=
  Settled (utf16 ("</td>" ++ after)) ∧
    feed .data (utf16 ("</td>" ++ after)) = some (.data, .endTag (utf16 "td") :: text (utf16 after))

theorem reads_cell {b : Bool} {opening content : List Piece} {attrs : List (Units × Units)}
    {out : List Token} {after : String}
    (opens : Reads false false opening [.startTag (utf16 "td") attrs])
    (inside : Reads false b content out) (closes : Closes after) :
    Reads false false (cell opening content after) (td attrs out after) :=
  (opens.append inside).append (.markup closes.1 closes.2)

theorem reads_td : Reads false false [.markup "<td>"] [.startTag (utf16 "td") []] :=
  .markup (by decide) rfl

theorem reads_muted : Reads false false [.markup "<td class=\"muted\">"]
    [.startTag (utf16 "td") [(utf16 "class", utf16 "muted")]] :=
  .markup (by decide) rfl

/-- A class the template chooses. -/
theorem reads_class {name : String} (known : name ∈ ["ok", "warn", "err"]) :
    Reads false false [.markup "<td class=\"", .markup name, .markup "\">"]
      [.startTag (utf16 "td") [(utf16 "class", utf16 name)]] := by
  simp only [List.mem_cons, List.not_mem_nil, or_false] at known
  rcases known with rfl | rfl | rfl
  · exact ⟨fun _ later => later, rfl⟩
  · exact ⟨fun _ later => later, rfl⟩
  · exact ⟨fun _ later => later, rfl⟩

theorem closes_row : Closes "" := ⟨by decide, rfl⟩

theorem closes_line : Closes "\n        " := ⟨by decide, rfl⟩

theorem closes_wide : Closes "\n          " := ⟨by decide, rfl⟩

theorem reads_choose {yes no : String} (a : Bool) (known : Word yes ∧ Word no) :
    Reads false false [choose a yes no] (text (utf16 (if a then yes else no))) := by
  cases a with
  | false => exact .word known.2
  | true => exact .word known.1

/-- A class for each of two cases. -/
theorem reads_choice {yes no : String} (a : Bool) (known : yes ∈ ["ok", "warn", "err"])
    (others : no ∈ ["ok", "warn", "err"]) :
    Reads false false [.markup "<td class=\"", choose a yes no, .markup "\">"]
      [.startTag (utf16 "td") [(utf16 "class", utf16 (if a then yes else no))]] := by
  cases a with
  | false => exact reads_class others
  | true => exact reads_class known

section
variable {F : Type} [Float64 F] (fmt : Formats F)

/-! ## Rows -/

/-- `best` or `pinned` before the first address of a group. -/
def badge (pinned : Bool) (i : Nat) : List Token :=
  if i = 0 then
    .startTag (utf16 "span") [(utf16 "class", utf16 "badge")] ::
      text (utf16 (if pinned then "pinned" else "best")) ++
      .endTag (utf16 "span") :: text (utf16 " ")
  else []

/-- What a row of the groups' table says. -/
def hostCells (pinned : Bool) (h : HostState F) (c : CandidateState F) (i : Nat) : List Token :=
  List.flatten
    [td [] (shown (if i = 0 then utf16 h.name else [])) "\n          ",
      td [(utf16 "class", utf16 "muted")]
        (shown (if i = 0 then utf16 (", ".intercalate h.domains) else [])) "\n          ",
      td [] (badge pinned i ++ shown (utf16 c.ip.toString)) "\n          ",
      td [] (text (speedText fmt c.speedKbps).units) "\n          ",
      td [] (text (latencyText fmt c.latencyMs).units) "\n          ",
      td [(utf16 "class", utf16 (if c.down then "err" else "ok"))]
        (text (utf16 (if c.down then "down" else "up"))) ""]

/-- What a row of the speed tests says. -/
def speedtestCells (s : SpeedTestRecord F) : List Token :=
  List.flatten
    [td [] (text (fmt.fmtTime s.ts).units) "",
      td [] (shown (utf16 s.host)) "",
      td [] (shown (utf16 s.ip)) "\n        ",
      td [] (text (latencyText fmt s.latencyMs).units) "\n        ",
      td [] (text (speedText fmt s.speedKbps).units) "\n        ",
      td [(utf16 "class", utf16 (if s.success then "ok" else "err"))]
        (text (utf16 (if s.success then "yes" else "no"))) ""]

/-- A number of bytes as a cell shows it. -/
def bytesText (b : Nat) : List Token :=
  let (v, u) := fmtBytesLoop ["KB", "MB", "GB"] "B" (Float64.ofNat b : F)
  text (fmt.toFixed v).units ++ text (utf16 (" " ++ u))

/-- What a row of the requests says. -/
def requestCells (r : RequestRecord F) : List Token :=
  List.flatten
    [td [] (text (fmt.fmtTime r.ts).units) "",
      td [] (shown (utf16 r.clientIp)) "",
      td [] (shown (utf16 r.host)) "\n        ",
      td [(utf16 "class", utf16 "path"),
          (utf16 "title", (normalizeNewlines (utf16 r.path)).map attrUnit)]
        (shown (utf16 r.method) ++ text (utf16 " ") ++ shown (utf16 r.path)) "\n        ",
      td [(utf16 "class", utf16 (statusClass r.status))]
        (text (fmt.number r.status.toNat).units) "\n        ",
      td [] (bytesText fmt r.bytes) "\n        ",
      td [] (text (speedText fmt (some r.throughputKbps)).units) "\n        ",
      td [] (text (if r.ttfbMs = 0 then dash else fmt.number r.ttfbMs).units) "\n        ",
      td [] (shown (utf16 (orDash r.upstreamIp))) "\n        ",
      td [(utf16 "class", utf16 "muted")] (shown ((utf16 (r.error.getD "")).take 60)) ""]

theorem reads_speedtestRow (s : SpeedTestRecord F) :
    Reads false false (speedtestRow fmt s) (speedtestCells fmt s) := by
  apply Reads.flatten
  refine .cons ?time (.cons ?host (.cons ?ip (.cons ?latency (.cons ?speed (.cons ?success .nil)))))
  case time => exact reads_cell reads_td (.plain _) closes_row
  case host => exact reads_cell reads_td (.escaped _) closes_row
  case ip => exact reads_cell reads_td (.escaped _) closes_line
  case latency => exact reads_cell reads_td (.plain _) closes_line
  case speed => exact reads_cell reads_td (.plain _) closes_line
  case success =>
    exact reads_cell (reads_choice _ (by decide) (by decide)) (reads_choose _ (by decide))
      closes_row

theorem reads_badge (pinned : Bool) (i : Nat) :
    Reads false false
      (if i = 0 then
        [choose pinned "<span class=\"badge\">pinned</span> "
          "<span class=\"badge\">best</span> "]
      else []) (badge pinned i) := by
  unfold badge
  by_cases first : i = 0
  · rw [if_pos first, if_pos first]
    cases pinned with
    | false => exact .markup (by decide) rfl
    | true => exact .markup (by decide) rfl
  · rw [if_neg first, if_neg first]
    exact ⟨fun _ later => later, rfl⟩

theorem reads_hostRow (pinned : Bool) (h : HostState F) (c : CandidateState F) (i : Nat) :
    Reads false false (hostRow fmt pinned h c i) (hostCells fmt pinned h c i) := by
  apply Reads.flatten
  refine .cons ?name (.cons ?domains (.cons ?ip (.cons ?speed (.cons ?latency (.cons ?down .nil)))))
  case name => exact reads_cell reads_td (.escaped _) closes_wide
  case domains => exact reads_cell reads_muted (.escaped _) closes_wide
  case ip => exact reads_cell reads_td ((reads_badge pinned i).append (.escaped _)) closes_wide
  case speed => exact reads_cell reads_td (.plain _) closes_wide
  case latency => exact reads_cell reads_td (.plain _) closes_wide
  case down =>
    exact reads_cell (reads_choice _ (by decide) (by decide)) (reads_choose _ (by decide))
      closes_row

theorem fmtBytesLoop_unit (units : List String) (u : String) (v : F) :
    (fmtBytesLoop units u v).2 ∈ u :: units := by
  induction units generalizing u v with
  | nil => exact List.mem_cons_self
  | cons next rest ih =>
    unfold fmtBytesLoop
    split_ifs
    · exact List.mem_cons_of_mem u (ih next _)
    · exact List.mem_cons_self

theorem reads_fmtBytes (b : Nat) :
    Reads false false (fmtBytes fmt b) (bytesText fmt b) := by
  have words : ∀ u ∈ ["B", "KB", "MB", "GB"], Word (" " ++ u) := by decide
  have known := words _ (fmtBytesLoop_unit ["KB", "MB", "GB"] "B" (Float64.ofNat b : F))
  exact (Reads.plain _).append (.word known)

theorem statusClass_known (s : UInt16) : statusClass s ∈ ["ok", "warn", "err"] := by
  unfold statusClass
  split_ifs <;> decide

/-- The cell of the path has it in an attribute, too. -/
theorem reads_path (path : Units) :
    Reads false false [.markup "<td class=\"path\" title=\"", .escaped path, .markup "\">"]
      [.startTag (utf16 "td") [(utf16 "class", utf16 "path"),
        (utf16 "title", (normalizeNewlines path).map attrUnit)]] :=
  ⟨fun _ later => later, rfl⟩

theorem reads_requestRow (r : RequestRecord F) :
    Reads false false (requestRow fmt r) (requestCells fmt r) := by
  apply Reads.flatten
  refine .cons ?time (.cons ?client (.cons ?host (.cons ?path (.cons ?status (.cons ?bytes
    (.cons ?speed (.cons ?ttfb (.cons ?upstream (.cons ?error .nil)))))))))
  case time => exact reads_cell reads_td (.plain _) closes_row
  case client => exact reads_cell reads_td (.escaped _) closes_row
  case host => exact reads_cell reads_td (.escaped _) closes_line
  case path =>
    have space : Reads true false [.markup " "] (text (utf16 " ")) := .word (by decide)
    have line := ((Reads.escaped (utf16 r.method)).append space).append (.escaped (utf16 r.path))
    exact reads_cell (reads_path _) line closes_line
  case status => exact reads_cell (reads_class (statusClass_known _)) (.plain _) closes_line
  case bytes => exact reads_cell reads_td (reads_fmtBytes fmt _) closes_line
  case speed => exact reads_cell reads_td (.plain _) closes_line
  case ttfb => exact reads_cell reads_td (.plain _) closes_line
  case upstream => exact reads_cell reads_td (.escaped _) closes_line
  case error => exact reads_cell reads_muted (.escaped _) closes_row

/-- What the tables say. -/
def Summary.cells (d : Summary F) : Tables (List Token) where
  hosts := d.hosts.flatMap fun h =>
    (h.candidates.take 5).zipIdx.map fun (c, i) => hostCells fmt d.pinned h c i
  speedtests := d.recentSpeedtests.map (speedtestCells fmt)
  requests := d.recent.map (requestCells fmt)

/-- Every row is read as its cells, with the texts of the API in them and nothing else: no text
opens or closes a tag, ends an attribute or is read as a reference. -/
theorem tokenize_innerHTML (d : Summary F) :
    (d.innerHTML fmt).map tokenize = (d.cells fmt).map some := by
  have host (h : HostState F) (c : CandidateState F) (i : Nat) :=
    (reads_hostRow fmt d.pinned h c i).tokenize escapes_esc
  have speedtest (s : SpeedTestRecord F) := (reads_speedtestRow fmt s).tokenize escapes_esc
  have request (r : RequestRecord F) := (reads_requestRow fmt r).tokenize escapes_esc
  simp [Tables.map, Summary.innerHTML, Summary.rows, Summary.cells, List.map_flatMap,
    Function.comp_def, host, speedtest, request]

end

/-- The tag a token opens. -/
def openedTag : Token → Option Units
  | .startTag name _ => some name
  | _ => none

/-- A group, a test and a request with markup in their texts. -/
def markedUp : Summary ℚ where
  now := 1000
  lastHour := ⟨1, 0, 0, 1, 0⟩
  last24h := ⟨1, 0, 0, 1, 0⟩
  series := []
  statusCounts := []
  hosts := [⟨"</td><b>", ["a.example&lt;"], 80, Selector.freshCandidates [.v4 1 1 1 1], none⟩]
  recent :=
    [⟨990, "192.168.1.20", "<i>d1.xboxlive.cn", "/\"><script>alert(1)</script>", "GET", 502, 0, 7, 0,
      0, none, false, some "<img src=x onerror='alert(1)'>"⟩]
  recentSpeedtests := [⟨980, "<!--", "1.1.1.1", some 40, some (2001 / 2), true⟩]
  speedtestRunning := false
  pinned := false
  speedtestDisabled := false
  autoSpeedtest := true

theorem tokenize_innerHTML_markedUp :
    ∃ host test request, (markedUp.innerHTML numerals).map tokenize =
        ⟨[some host], [some test], [some request]⟩ ∧
      host.filterMap openedTag = [utf16 "td", utf16 "td", utf16 "td", utf16 "span",
        utf16 "td", utf16 "td", utf16 "td"] ∧
      test.filterMap openedTag = List.replicate 6 (utf16 "td") ∧
      request.filterMap openedTag = List.replicate 10 (utf16 "td") ∧
      .startTag (utf16 "td") [(utf16 "class", utf16 "path"),
        (utf16 "title", utf16 "/\"><script>alert(1)</script>")] ∈ request :=
  ⟨_, _, _, tokenize_innerHTML numerals markedUp, by decide +kernel, by decide +kernel,
    by decide +kernel, by decide +kernel⟩

end XboxProxy
