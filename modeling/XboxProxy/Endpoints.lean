import XboxProxy.Selector.Routing

/-!
# The bundled endpoint groups (`src/endpoints.rs`)

The hardcoded table of groups, the loader that turns the address lists compiled into the
binary into definitions, and the pins read from the environment. The contents of
`data/ip/IP.XboxCn1.txt` and `data/ip/IP.XboxCn2.txt` are arguments.
-/

namespace XboxProxy
open Misc

/-- `EndpointSpec` (`endpoints.rs:12-19`); `ipList` is the text `include_str!` yields. -/
structure EndpointSpec where
  name : String
  domainMap : List (String × String)
  ipList : String
  upstreamPort : UInt16
  testUrl : String

/-- `ENDPOINTS` (`endpoints.rs:21-52`). -/
def endpoints (xboxCn1 xboxCn2 : String) : List EndpointSpec :=
  [{ name := "xbox-assets"
     domainMap :=
      [("assets1.xboxlive.com", "assets1.xboxlive.cn"),
       ("assets2.xboxlive.com", "assets2.xboxlive.cn"),
       ("d1.xboxlive.com", "assets1.xboxlive.cn"),
       ("d2.xboxlive.com", "assets2.xboxlive.cn"),
       ("xvcf1.xboxlive.com", "assets1.xboxlive.cn"),
       ("xvcf2.xboxlive.com", "assets2.xboxlive.cn"),
       ("assets1.xboxlive.cn", "assets1.xboxlive.cn"),
       ("assets2.xboxlive.cn", "assets2.xboxlive.cn"),
       ("d1.xboxlive.cn", "assets1.xboxlive.cn"),
       ("d2.xboxlive.cn", "assets2.xboxlive.cn")]
     ipList := xboxCn1
     upstreamPort := 80
     testUrl := "http://assets1.xboxlive.cn/Z/routing/extraextralarge.txt" },
   { name := "xbox-content"
     domainMap :=
      [("dlassets.xboxlive.com", "dlassets.xboxlive.cn"),
       ("dlassets2.xboxlive.com", "dlassets2.xboxlive.cn"),
       ("dlassets.xboxlive.cn", "dlassets.xboxlive.cn"),
       ("dlassets2.xboxlive.cn", "dlassets2.xboxlive.cn")]
     ipList := xboxCn2
     upstreamPort := 80
     testUrl := "http://dlassets.xboxlive.cn/public/content/1b5a4a08-06f0-49d6-b25f-d7322c11f3c8/372e2966-b158-4488-8bc8-15ef23db1379/1.5.0.1018.88cd7a5d-f56a-40c7-afd8-85cd4940b891/ACUEU771E1BF7_1.5.0.1018_x64__b6krnev7r9sf8" }]

/-- What the groups of the table are routed by. -/
def bundledTable : HostTable := (endpoints "" "").map fun spec => (spec.name, spec.domainMap)

/-- The errors of `load`. -/
inductive LoadError where
  /-- `endpoint {:?} has no IP candidates` -/
  | noCandidates (name : String)
  /-- `cannot read {name}: {e}` -/
  | unreadable (name : String)
  /-- `{name} must be an IPv4 address, got {raw:?}` -/
  | notIpv4 (name raw : String)
  deriving DecidableEq

/-- `ips.retain(|ip| seen.insert(*ip))` (`endpoints.rs:111`). -/
def retainUnseen : List IpAddr → List IpAddr → List IpAddr
  | _, [] => []
  | seen, ip :: ips =>
    if ip ∈ seen then retainUnseen seen ips else ip :: retainUnseen (ip :: seen) ips

/-- The addresses of a bundled list: the first token of each line, if it is one
(`endpoints.rs:103-109`). -/
def parseIpList (text : String) : List IpAddr :=
  (lines text).filterMap fun line =>
    IpAddr.parse (String.ofList (line.toList.takeWhile fun c => c ≠ '\t' ∧ c ≠ ' ' ∧ c ≠ ';'))

/-- The definition of a group with given addresses (`endpoints.rs:115-125`). -/
def EndpointSpec.hostDef (spec : EndpointSpec) (ips : List IpAddr) : HostDef where
  name := spec.name
  domainMap := spec.domainMap
  ips
  upstreamPort := spec.upstreamPort
  testUrl := spec.testUrl

/-- The loop body of `load_bundled` (`endpoints.rs:102-125`). -/
def loadSpec (spec : EndpointSpec) : Except LoadError HostDef :=
  let ips := retainUnseen [] (parseIpList spec.ipList)
  if ips.isEmpty then .error (.noCandidates spec.name) else .ok (spec.hostDef ips)

/-- `load_bundled` (`endpoints.rs:99-128`). -/
def loadBundled (specs : List EndpointSpec) : Except LoadError (List HostDef) :=
  specs.mapM loadSpec

/-- `pin_group` of the loader (`endpoints.rs:93-97`). -/
def pinGroup (hosts : List HostDef) (name : String) (ip : IpAddr) : List HostDef :=
  modifyFirst (fun h => h.name == name) (fun h => { h with ips := [ip] }) hosts

/-- What `std::env::var` answers; `none` stands for `NotPresent`, an error for a value that
is not Unicode. -/
abbrev EnvVar := Except Unit (Option String)

/-- `ipv4_from_env` (`endpoints.rs:76-91`). -/
def ipv4FromEnv (name : String) : EnvVar → Except LoadError (Option IpAddr)
  | .ok none => .ok none
  | .error () => .error (.unreadable name)
  | .ok (some raw) =>
    let raw := trim raw
    if raw.isEmpty then .ok none
    else
      match IpAddr.parseV4 raw with
      | some ip => .ok (some ip)
      | none => .error (.notIpv4 name raw)

/-- `LoadedEndpoints` (`endpoints.rs:54-58`). -/
structure LoadedEndpoints where
  hosts : List HostDef
  pinned : Bool

/-- `load` (`endpoints.rs:60-74`). -/
def load (xboxCn1 xboxCn2 : String) (pinCn1 pinCn2 : EnvVar) :
    Except LoadError LoadedEndpoints := do
  let hosts ← loadBundled (endpoints xboxCn1 xboxCn2)
  let cn1 ← ipv4FromEnv "XBOXPROXY_PIN_CN1" pinCn1
  let cn2 ← ipv4FromEnv "XBOXPROXY_PIN_CN2" pinCn2
  let hosts := cn1.elim hosts (pinGroup hosts "xbox-assets")
  let hosts := cn2.elim hosts (pinGroup hosts "xbox-content")
  return { hosts, pinned := cn1.isSome || cn2.isSome }

example : parseIpList "XboxCn1\n\n114.105.125.22\t(CN)\n60.167.226.211 x" =
    [.v4 114 105 125 22, .v4 60 167 226 211] := by decide

/-! ## What the loader produces -/

theorem mem_retainUnseen {seen ips : List IpAddr} {ip : IpAddr} :
    ip ∈ retainUnseen seen ips ↔ ip ∈ ips ∧ ip ∉ seen := by
  induction ips generalizing seen with
  | nil => simp [retainUnseen]
  | cons head tail ih =>
    unfold retainUnseen
    split
    · rename_i old
      rw [ih, List.mem_cons]
      constructor
      · rintro ⟨member, new⟩
        exact ⟨Or.inr member, new⟩
      · rintro ⟨rfl | member, new⟩
        · exact absurd old new
        · exact ⟨member, new⟩
    · rename_i unseen
      rw [List.mem_cons, List.mem_cons, ih, List.mem_cons]
      by_cases same : ip = head
      · subst same
        simp [unseen]
      · simp [same]

theorem nodup_retainUnseen (seen ips : List IpAddr) : (retainUnseen seen ips).Nodup := by
  induction ips generalizing seen with
  | nil => simp [retainUnseen]
  | cons head tail ih =>
    unfold retainUnseen
    split
    · exact ih seen
    · rw [List.nodup_cons, mem_retainUnseen]
      exact ⟨fun member => member.2 (by simp), ih _⟩

/-- What `loadSpec` makes of a row of the table. -/
theorem of_loadSpec {spec : EndpointSpec} {d : HostDef} (loaded : loadSpec spec = .ok d) :
    retainUnseen [] (parseIpList spec.ipList) ≠ [] ∧
      d = spec.hostDef (retainUnseen [] (parseIpList spec.ipList)) := by
  unfold loadSpec at loaded
  simp only at loaded
  split at loaded
  · cases loaded
  · rename_i nonempty
    cases loaded
    exact ⟨by simpa using nonempty, rfl⟩

/-- The table is loaded row by row. -/
theorem of_loadBundled {specs : List EndpointSpec} {hosts : List HostDef}
    (loaded : loadBundled specs = .ok hosts) :
    List.Forall₂ (fun spec d => loadSpec spec = .ok d) specs hosts := by
  unfold loadBundled at loaded
  induction specs generalizing hosts with
  | nil =>
    cases loaded
    exact .nil
  | cons spec specs ih =>
    rw [List.mapM_cons] at loaded
    cases first : loadSpec spec with
    | error e => simp [first, bind, Except.bind] at loaded
    | ok d =>
      cases rest : specs.mapM loadSpec with
      | error e => simp [first, rest, bind, Except.bind] at loaded
      | ok ds =>
        obtain rfl : d :: ds = hosts := by
          simpa [first, rest, bind, Except.bind, pure, Except.pure] using loaded
        exact .cons first (ih rest)

theorem wellFormed_loadSpec {spec : EndpointSpec} {d : HostDef} (loaded : loadSpec spec = .ok d) :
    d.WellFormed := by
  obtain ⟨nonempty, rfl⟩ := of_loadSpec loaded
  exact ⟨nonempty, nodup_retainUnseen [] _⟩

theorem wellFormed_loadBundled {specs : List EndpointSpec} {hosts : List HostDef}
    (loaded : loadBundled specs = .ok hosts) : ∀ d ∈ hosts, d.WellFormed := by
  have rows := of_loadBundled loaded
  clear loaded
  induction rows with
  | nil => simp
  | cons first _ ih =>
    intro d member
    rcases List.mem_cons.mp member with rfl | member
    · exact wellFormed_loadSpec first
    · exact ih d member

theorem wellFormed_pinGroup {hosts : List HostDef} (wellFormed : ∀ d ∈ hosts, d.WellFormed)
    (name : String) (ip : IpAddr) : ∀ d ∈ pinGroup hosts name ip, d.WellFormed := by
  unfold pinGroup
  induction hosts with
  | nil => simp [modifyFirst]
  | cons h hs ih =>
    have tail := ih fun d member => wellFormed d (by simp [member])
    unfold modifyFirst
    split
    · intro d member
      rcases List.mem_cons.mp member with rfl | member
      · exact ⟨by simp, by simp⟩
      · exact wellFormed d (by simp [member])
    · intro d member
      rcases List.mem_cons.mp member with rfl | member
      · exact wellFormed d (by simp)
      · exact tail d member

/-- The groups `load` leaves: the bundled ones, with the pins that are set. -/
theorem of_load {xboxCn1 xboxCn2 : String} {pinCn1 pinCn2 : EnvVar} {loaded : LoadedEndpoints}
    (h : load xboxCn1 xboxCn2 pinCn1 pinCn2 = .ok loaded) :
    ∃ hosts cn1 cn2, loadBundled (endpoints xboxCn1 xboxCn2) = .ok hosts ∧
      loaded.hosts = Option.elim cn2 (Option.elim cn1 hosts (pinGroup hosts "xbox-assets"))
        (pinGroup (Option.elim cn1 hosts (pinGroup hosts "xbox-assets")) "xbox-content") := by
  unfold load at h
  cases bundled : loadBundled (endpoints xboxCn1 xboxCn2) with
  | error e => simp [bundled, bind, Except.bind] at h
  | ok hosts =>
    cases cn1 : ipv4FromEnv "XBOXPROXY_PIN_CN1" pinCn1 with
    | error e => simp [bundled, cn1, bind, Except.bind] at h
    | ok cn1' =>
      cases cn2 : ipv4FromEnv "XBOXPROXY_PIN_CN2" pinCn2 with
      | error e => simp [bundled, cn1, cn2, bind, Except.bind] at h
      | ok cn2' =>
        simp only [bundled, cn1, cn2, bind, Except.bind, pure, Except.pure,
          Except.ok.injEq] at h
        subst h
        exact ⟨hosts, cn1', cn2', rfl, rfl⟩

/-- Whatever the data files and the environment hold, the definitions the program starts
with are well formed. -/
theorem wellFormed_load {xboxCn1 xboxCn2 : String} {pinCn1 pinCn2 : EnvVar}
    {loaded : LoadedEndpoints} (h : load xboxCn1 xboxCn2 pinCn1 pinCn2 = .ok loaded) :
    ∀ d ∈ loaded.hosts, d.WellFormed := by
  obtain ⟨hosts, cn1, cn2, bundled, pins⟩ := of_load h
  -- each pin that is set replaces the addresses of its group
  have pin : ∀ (hosts : List HostDef) (name : String) (ip : Option IpAddr),
      (∀ d ∈ hosts, d.WellFormed) → ∀ d ∈ ip.elim hosts (pinGroup hosts name), d.WellFormed := by
    intro hosts name ip wellFormed
    cases ip with
    | none => exact wellFormed
    | some ip => exact wellFormed_pinGroup wellFormed name ip
  rw [pins]
  exact pin _ _ _ (pin _ _ _ (wellFormed_loadBundled bundled))

/-! ## How the bundled groups are routed -/

theorem routes_loadBundled {specs : List EndpointSpec} {hosts : List HostDef}
    (loaded : loadBundled specs = .ok hosts) :
    hosts.map HostDef.routes = specs.map fun spec => (spec.name, spec.domainMap) := by
  have rows := of_loadBundled loaded
  clear loaded
  induction rows with
  | nil => rfl
  | cons first _ ih =>
    obtain ⟨-, rfl⟩ := of_loadSpec first
    rw [List.map_cons, List.map_cons, ih]
    rfl

/-- Whatever the data files and the environment hold, the program routes by the bundled
table. -/
theorem routes_load {xboxCn1 xboxCn2 : String} {pinCn1 pinCn2 : EnvVar}
    {loaded : LoadedEndpoints} (h : load xboxCn1 xboxCn2 pinCn1 pinCn2 = .ok loaded) :
    loaded.hosts.map HostDef.routes = bundledTable := by
  obtain ⟨hosts, cn1, cn2, bundled, pins⟩ := of_load h
  have pin : ∀ (hosts : List HostDef) (name : String) (ip : Option IpAddr),
      (ip.elim hosts (pinGroup hosts name)).map HostDef.routes = hosts.map HostDef.routes := by
    intro hosts name ip
    cases ip with
    | none => rfl
    | some ip =>
      apply map_modifyFirst
      intro d
      rfl
  rw [pins, pin, pin, routes_loadBundled bundled]
  rfl

/-- No domain of the table covers another or the name of a group, and the upstream hosts are
domains of their own groups. -/
theorem unambiguous_bundledTable : Unambiguous bundledTable where
  apart := by
    -- the comparisons are evaluated on characters, without building the strings again
    simp only [dotSuffix_iff, normalizeHost, toList_toAsciiLowercase, toList_trimEndMatches]
    decide +kernel
  unnamed := by
    simp only [dotSuffix_iff, normalizeHost, toList_toAsciiLowercase, toList_trimEndMatches]
    decide +kernel
  rewritten := by
    simp only [Route.Matches, dotSuffix_iff, normalizeHost, toList_toAsciiLowercase,
      toList_trimEndMatches]
    decide +kernel

/-- The names of the table have no trailing dots and differ by more than case. -/
theorem names_bundledTable :
    (∀ t ∈ bundledTable, normalizeHost t.1 = toAsciiLowercase t.1) ∧
      bundledTable.Pairwise fun t t' => toAsciiLowercase t.1 ≠ toAsciiLowercase t'.1 := by
  simp only [normalizeHost, ← String.toList_inj, ne_eq, toList_toAsciiLowercase,
    toList_trimEndMatches]
  decide +kernel

/-- Whatever the data files and the environment hold, and whatever has been called since, the
groups are routed to by their names. -/
theorem namesRouted_load {F : Type} {xboxCn1 xboxCn2 : String} {pinCn1 pinCn2 : EnvVar}
    {loaded : LoadedEndpoints} (h : load xboxCn1 xboxCn2 pinCn1 pinCn2 = .ok loaded)
    {penalty : Nat} {s : Selector F} (reachable : s.Reachable loaded.hosts penalty) :
    s.NamesRouted := by
  have table : s.table = bundledTable := by
    rw [reachable.sameGroups.table, Selector.table_new, routes_load h]
  apply Selector.namesRouted_of_unambiguous
  · rw [table]
    exact unambiguous_bundledTable
  · rw [table]
    exact names_bundledTable.1
  · rw [table]
    exact names_bundledTable.2

end XboxProxy
