import XboxProxy.Dashboard.Pins
import XboxProxy.Endpoints
import XboxProxy.Net.Proofs.Text
import XboxProxy.Selector.Proofs.BestBadge
import XboxProxy.Selector.Proofs.PinRuns

/-!
# What the pin route does

A post is refused or is a call of `set_pinned_ip`, so runs of the program are runs of the
selector. The route takes an address only in the text it shows it in, and the pins shown are
therefore the texts that were sent.
-/

namespace XboxProxy
open Misc

/-- The text of an IPv4 address. -/
def DottedQuad (s : String) : Prop := ∃ a b c d, s = (IpAddr.v4 a b c d).toString

theorem dottedQuad_iff {s : String} : DottedQuad s ↔ (IpAddr.parseV4 s).isSome := by
  rw [Option.isSome_iff_exists]
  constructor
  · rintro ⟨a, b, c, d, rfl⟩
    exact ⟨_, IpAddr.parseV4_toString a b c d⟩
  · rintro ⟨ip, parsed⟩
    obtain ⟨a, b, c, d, rfl, text⟩ := IpAddr.parseV4_eq_some_iff.mp parsed
    exact ⟨a, b, c, d, text⟩

instance (s : String) : Decidable (DottedQuad s) := decidable_of_iff _ dottedQuad_iff.symm

/-- The body is blank or asks for an IPv4 address. -/
def PinGroupBody.Valid (body : PinGroupBody) : Prop := ∀ raw ∈ body.text, DottedQuad raw

instance (body : PinGroupBody) : Decidable body.Valid :=
  inferInstanceAs (Decidable (∀ raw ∈ body.text, DottedQuad raw))

/-- A valid body asks for the address it names, and its text is that of the address. -/
theorem PinGroupBody.target_of_valid {body : PinGroupBody} (valid : body.Valid) :
    ∃ ip, body.target = .ok ip ∧ ip.map IpAddr.toString = body.text := by
  unfold target
  cases text : body.text with
  | none => exact ⟨none, rfl, rfl⟩
  | some raw =>
    obtain ⟨a, b, c, d, rfl⟩ := valid raw text
    exact ⟨some (.v4 a b c d), by simp [IpAddr.parseV4_toString], rfl⟩

theorem PinGroupBody.target_of_not_valid {body : PinGroupBody} (invalid : ¬body.Valid) :
    body.target = .error "invalid_ip" := by
  unfold target
  cases text : body.text with
  | none => exact absurd (by simp [Valid, text]) invalid
  | some raw =>
    cases parsed : IpAddr.parseV4 raw with
    | none => simp [parsed]
    | some ip => exact absurd (by simp [Valid, text, dottedQuad_iff, parsed]) invalid

namespace Dashboard
open Selector

variable {F : Type}

/-! ## Posts are calls -/

/-- The call a post makes, if its text asks for anything. -/
def postCall (body : PinGroupBody) : List (SelectorCall F) :=
  match body.target with
  | .ok ip => [.setPinnedIp body.name ip]
  | .error _ => []

/-- The call a step makes, if it makes one. -/
def SelectorStep.call : SelectorStep F → List (SelectorCall F)
  | .pinGroup body => postCall body
  | .updateResult host ip latencyMs speedKbps success now =>
    [.updateResult host ip latencyMs speedKbps success now]

theorem pinGroup_snd (debug : String → String) (s : Selector F) (body : PinGroupBody) :
    (pinGroup debug s body).2 = s.runCalls (postCall body) := by
  unfold pinGroup postCall
  cases body.target with
  | error reason => rfl
  | ok ip =>
    have after : s.runCalls [.setPinnedIp body.name ip] = (s.setPinnedIp body.name ip).2 := rfl
    simp only [after]
    split <;> rename_i result <;> rw [result]

theorem steps_eq_runCalls (debug : String → String) (s : Selector F)
    (taken : List (SelectorStep F)) :
    steps debug s taken = s.runCalls (taken.flatMap SelectorStep.call) := by
  unfold steps
  induction taken generalizing s with
  | nil => rfl
  | cons first rest ih =>
    have one : step debug s first = s.runCalls first.call := by
      cases first with
      | pinGroup body => exact pinGroup_snd debug s body
      | updateResult => rfl
    rw [List.foldl_cons, ih, one, List.flatMap_cons, runCalls, runCalls, runCalls,
      List.foldl_append]

/-! ## Replies -/

/-- Where every group has bundled addresses, a pin or a restore of a managed name succeeds. -/
theorem pinTarget_of_indexOf {s : Selector F} (bundled : ∀ h ∈ s.hosts, h.bundledIps ≠ [])
    {name : String} {g : Nat} (routed : s.indexOf name = some g) (ip : Option IpAddr) :
    ∃ ips, s.pinTarget name ip = .ok (g, ips) := by
  obtain ⟨bound, -⟩ := List.findIdx?_eq_some_iff_getElem.mp routed
  have group : s.hosts[g]? = some s.hosts[g] := List.getElem?_eq_getElem bound
  have nonempty := pinIps_ne_nil (bundled _ (List.getElem_mem bound)) ip
  refine ⟨pinIps s.hosts[g].bundledIps ip, ?_⟩
  unfold pinTarget
  simp [routed, group, nonempty]

/-- A post is accepted if its text is blank or the text of an IPv4 address and its name is
managed. The reply then holds the text as it was sent. -/
theorem pinGroup_fst {s : Selector F} (bundled : ∀ h ∈ s.hosts, h.bundledIps ≠ [])
    (debug : String → String) (body : PinGroupBody) :
    (pinGroup debug s body).1 =
      if body.Valid then
        if (s.indexOf body.name).isSome then .ok body.text
        else .refused (SelectorError.message debug (.unknownGroup body.name))
      else .refused "invalid_ip" := by
  unfold pinGroup
  by_cases valid : body.Valid
  · obtain ⟨ip, target, text⟩ := PinGroupBody.target_of_valid valid
    rw [if_pos valid]
    simp only [target]
    cases routed : s.indexOf body.name with
    | none => simp [setPinnedIp, pinTarget, routed]
    | some g =>
      obtain ⟨ips, pinned⟩ := pinTarget_of_indexOf bundled routed ip
      simp [setPinnedIp, pinned, text]
  · rw [if_neg valid]
    simp only [PinGroupBody.target_of_not_valid valid]

/-! ## Whole runs -/

/-- The text a step pins group `g` by, if it is a post the group accepts. -/
def postedTo (s : Selector F) (g : Nat) : SelectorStep F → Option (Option String)
  | .pinGroup body => if body.Valid ∧ s.indexOf body.name = some g then some body.text else none
  | .updateResult .. => none

/-- The text of the last post that group `g` accepted; `none` also when it was blank. -/
def lastPosted (s : Selector F) (g : Nat) (taken : List (SelectorStep F)) : Option String :=
  (taken.reverse.findSome? (postedTo s g)).join

/-- The pin of a step's call, as text, is the text of the step. -/
theorem pinOf_call {s : Selector F} (bundled : ∀ h ∈ s.hosts, h.bundledIps ≠ []) (g : Nat)
    (step : SelectorStep F) :
    (step.call.reverse.findSome? (s.pinOf g)).map (Option.map IpAddr.toString) =
      postedTo s g step := by
  cases step with
  | updateResult => rfl
  | pinGroup body =>
    unfold SelectorStep.call postCall postedTo
    by_cases valid : body.Valid
    · obtain ⟨ip, target, text⟩ := PinGroupBody.target_of_valid valid
      simp only [target, valid, true_and]
      cases routed : s.indexOf body.name with
      | none => simp [pinOf, pinTarget, routed]
      | some i =>
        obtain ⟨ips, pinned⟩ := pinTarget_of_indexOf bundled routed ip
        by_cases here : i = g <;> simp [pinOf, pinned, here, text]
    · simp [PinGroupBody.target_of_not_valid valid, valid]

theorem lastPin_calls {s : Selector F} (bundled : ∀ h ∈ s.hosts, h.bundledIps ≠ []) (g : Nat)
    (taken : List (SelectorStep F)) :
    (s.lastPin g (taken.flatMap SelectorStep.call)).join.map IpAddr.toString =
      lastPosted s g taken := by
  have texts : (s.lastPin g (taken.flatMap SelectorStep.call)).map (Option.map IpAddr.toString) =
      taken.reverse.findSome? (postedTo s g) := by
    unfold lastPin
    induction taken using List.reverseRecOn with
    | nil => rfl
    | append_singleton before last ih =>
      rw [List.flatMap_append, List.flatMap_singleton, List.reverse_append, List.findSome?_append,
        List.reverse_append, List.findSome?_append, ← ih, Option.map_or, pinOf_call bundled,
        List.reverse_singleton, List.findSome?_singleton]
  unfold lastPosted
  rw [← texts]
  cases s.lastPin g (taken.flatMap SelectorStep.call) <;> rfl

theorem lastPosted_valid {s : Selector F} {g : Nat} {taken : List (SelectorStep F)} {text : String}
    (posted : lastPosted s g taken = some text) : DottedQuad text := by
  unfold lastPosted at posted
  obtain ⟨step, -, post⟩ := List.exists_of_findSome?_eq_some (Option.join_eq_some_iff.mp posted)
  cases step with
  | updateResult => cases post
  | pinGroup body =>
    simp only [postedTo] at post
    split at post
    · rename_i accepted
      exact accepted.1 text (Option.some.inj post)
    · cases post

/-- What a run leaves in a group: the pin as it was sent last, and its addresses. -/
theorem group_of_steps {defs : List HostDef} (wellFormed : ∀ d ∈ defs, d.WellFormed) (penalty : Nat)
    (debug : String → String) (taken : List (SelectorStep F)) {g : Nat} {d : HostDef}
    (hd : defs[g]? = some d) :
    ∃ h, (steps debug (new (F := F) defs penalty) taken).hosts[g]? = some h ∧ h.hostDef = d ∧
      h.bundledIps = d.ips ∧ h.candidates.map (·.ip) = pinIps d.ips h.pinnedIp ∧
      h.pinnedIp.map IpAddr.toString = lastPosted (new (F := F) defs penalty) g taken := by
  have distinct : ∀ d ∈ defs, d.ips.Nodup := fun d member => (wellFormed d member).2
  have bundled : ∀ h ∈ (new (F := F) defs penalty).hosts, h.bundledIps ≠ [] := by
    intro h member
    obtain ⟨d, listed, rfl⟩ := List.mem_map.mp member
    exact (wellFormed d listed).1
  rw [steps_eq_runCalls]
  exact ⟨_, runCalls_group distinct penalty _ hd, rfl, rfl, map_ip_groupAfter ..,
    lastPin_calls bundled g taken⟩

theorem sameGroups_steps (debug : String → String) (s : Selector F)
    (taken : List (SelectorStep F)) : SameGroups (steps debug s taken) s := by
  rw [steps_eq_runCalls]
  exact sameGroups_runCalls s _

theorem bundledIps_of_sameGroups {defs : List HostDef} (wellFormed : ∀ d ∈ defs, d.WellFormed)
    {penalty : Nat} {s : Selector F} (same : SameGroups s (new defs penalty)) :
    ∀ h ∈ s.hosts, h.bundledIps ≠ [] := by
  intro h member
  have fixed : h.fixed ∈ (new (F := F) defs penalty).hosts.map HostStateInner.fixed := by
    rw [← same.fixed]
    exact List.mem_map_of_mem member
  obtain ⟨h', listed, equal⟩ := List.mem_map.mp fixed
  obtain ⟨d, member, rfl⟩ := List.mem_map.mp listed
  have ips : h.bundledIps = d.ips := (congrArg Prod.snd equal).symm
  rw [ips]
  exact (wellFormed d member).1

/-- The pin route over whole runs: a group shows the text of the last post it accepted, has
that address as its only candidate and routes to it; otherwise it has its own addresses and
routes to one of them. A post is accepted exactly if its name is managed and its text is blank
or the text of an IPv4 address, which the reply repeats; a refused post changes nothing. -/
theorem pins_of_posts [Float64 F] (defs : List HostDef) (wellFormed : ∀ d ∈ defs, d.WellFormed)
    (penalty : Nat) (debug : String → String) (taken : List (SelectorStep F)) :
    let start : Selector F := new defs penalty
    let s := steps debug start taken
    (∀ g d, defs[g]? = some d → ∃ h, s.hosts[g]? = some h ∧
      h.pinnedIp.map IpAddr.toString = lastPosted start g taken ∧
      h.candidates.map (fun c => c.ip.toString) =
        (lastPosted start g taken).elim (d.ips.map IpAddr.toString) (fun text => [text]) ∧
      (∀ text, lastPosted start g taken = some text → ∀ host now, s.indexOf host = some g →
        (s.bestIp host now).map IpAddr.toString = some text) ∧
      (lastPosted start g taken = none → ∀ host now, s.indexOf host = some g →
        ∃ ip ∈ d.ips, s.bestIp host now = some ip)) ∧
    (∀ body, (pinGroup debug s body).1 =
      if body.Valid then
        if (start.indexOf body.name).isSome then .ok body.text
        else .refused (SelectorError.message debug (.unknownGroup body.name))
      else .refused "invalid_ip") ∧
    ∀ body reason, (pinGroup debug s body).1 = .refused reason → (pinGroup debug s body).2 = s := by
  intro start s
  have same : SameGroups s start := sameGroups_steps debug start taken
  refine ⟨?_, ?_, ?_⟩
  · intro g d hd
    obtain ⟨h, group, -, -, ips, shown⟩ := group_of_steps wellFormed penalty debug taken hd
    have texts : h.candidates.map (fun c => c.ip.toString) =
        (h.candidates.map (·.ip)).map IpAddr.toString := by rw [List.map_map]; rfl
    refine ⟨h, group, shown, ?_, ?_, ?_⟩
    · rw [texts, ips, ← shown]
      cases h.pinnedIp <;> rfl
    · intro text posted host now routed
      rw [← shown] at posted
      obtain ⟨p, pinned, rfl⟩ := Option.map_eq_some_iff.mp posted
      rw [bestIp_of_single routed group (by rw [ips, pinned]; rfl) now]
      rfl
    · intro restored host now routed
      rw [← shown, Option.map_eq_none_iff] at restored
      rw [restored] at ips
      have some : h.candidates ≠ [] := by
        rintro none
        rw [none] at ips
        exact (wellFormed d (List.mem_of_getElem? hd)).1 ips.symm
      obtain ⟨best, chosen⟩ := Option.isSome_iff_exists.mp
        (isSome_chosen some now s.failurePenalty)
      refine ⟨best.ip, ?_, by rw [bestIp_eq routed group, chosen]; rfl⟩
      have listed := List.mem_map_of_mem (f := (·.ip)) (mem_of_bestCandidate chosen)
      rwa [ips] at listed
  · intro body
    rw [pinGroup_fst (bundledIps_of_sameGroups wellFormed same), same.indexOf]
  · intro body reason
    unfold pinGroup
    cases body.target with
    | error reason => exact fun _ => rfl
    | ok ip =>
      simp only
      split
      · simp
      · rename_i e t failed
        intro _
        have unchanged : (s.setPinnedIp body.name ip).2 = s :=
          setPinnedIp_error (congrArg Prod.fst failed)
        rw [failed] at unchanged
        exact unchanged

/-- The run of the unit test `dashboard_pin_replaces_candidates_and_can_restore`, as posts. -/
theorem pins_of_posts_cdn :
    ((steps id (new (F := ℚ) [testDef [.v4 1 1 1 1, .v4 2 2 2 2]] 60)
        [.pinGroup ⟨"t", some " 9.9.9.9 "⟩, .pinGroup ⟨"t", some "9.9.9.09"⟩,
          .updateResult "cdn.example.com" (.v4 1 1 1 1) none none false 5]).bestIp
            "cdn.example.com" 6).map IpAddr.toString = some "9.9.9.9" := by
  obtain ⟨groups, -⟩ := pins_of_posts (F := ℚ) [testDef [.v4 1 1 1 1, .v4 2 2 2 2]] (by decide)
    60 id [.pinGroup ⟨"t", some " 9.9.9.9 "⟩, .pinGroup ⟨"t", some "9.9.9.09"⟩,
      .updateResult "cdn.example.com" (.v4 1 1 1 1) none none false 5]
  obtain ⟨h, -, -, -, routes, -⟩ := groups 0 _ rfl
  exact routes "9.9.9.9" (by decide) "cdn.example.com" 6 (by decide)

/-! ## The form -/

theorem dropWhile_rdropWhile_eq_self {blank : Char → Bool} {l : List Char}
    (solid : ∀ c ∈ l, blank c = false) : (l.dropWhile blank).rdropWhile blank = l := by
  have front : l.dropWhile blank = l := by
    rw [List.dropWhile_eq_self_iff]
    intro bound
    simp [solid _ (List.getElem_mem bound)]
  rw [front, List.rdropWhile_eq_self_iff]
  intro nonempty
  simp [solid _ (List.getLast_mem nonempty)]

/-- The text of an IPv4 address is left alone by the form and by the route. -/
theorem trim_dottedQuad {s : String} (quad : DottedQuad s) :
    trim s = s ∧ jsTrim s = s ∧ s ≠ "" := by
  obtain ⟨a, b, c, d, rfl⟩ := quad
  have solid : ∀ k ∈ (IpAddr.v4 a b c d).toString.toList,
      isWhitespace k = false ∧ jsIsWhitespace k = false := by
    intro k member
    rcases IpAddr.mem_toString_v4 member with rfl | digit
    · decide
    · obtain ⟨low, high⟩ : 48 ≤ k.toNat ∧ k.toNat ≤ 57 := by
        simpa [Char.isDigit, UInt32.le_iff_toNat_le] using digit
      have solid : isWhitespace k = false := by
        unfold isWhitespace
        simp
        omega
      refine ⟨solid, ?_⟩
      simp [jsIsWhitespace, solid]
      omega
  refine ⟨?_, ?_, ?_⟩
  · unfold trim
    rw [dropWhile_rdropWhile_eq_self fun k member => (solid k member).1, String.ofList_toList]
  · unfold jsTrim
    rw [dropWhile_rdropWhile_eq_self fun k member => (solid k member).2, String.ofList_toList]
  · intro empty
    have parsed := IpAddr.parseV4_toString a b c d
    have nothing : IpAddr.parseV4 "" = none := by decide
    rw [empty, nothing] at parsed
    cases parsed

/-- The form sends the pin it shows. -/
theorem text_pinGroupPost (shown : HostState F)
    (quad : ∀ text, shown.pinnedIp.map IpAddr.toString = some text → DottedQuad text) :
    (pinGroupPost shown.name (pinInput shown)).text = shown.pinnedIp.map IpAddr.toString := by
  unfold pinInput
  cases text : shown.pinnedIp.map IpAddr.toString with
  | none => rfl
  | some text' =>
    obtain ⟨plain, jsPlain, nonempty⟩ := trim_dottedQuad (quad _ text)
    simp [pinGroupPost, PinGroupBody.text, plain, jsPlain, nonempty]

/-- A post of the pin a group has anyway writes the pin and the addresses it has. -/
theorem pinGroup_same {s : Selector F} (bundled : ∀ h ∈ s.hosts, h.bundledIps ≠ [])
    (debug : String → String) {body : PinGroupBody} (valid : body.Valid) {g : Nat}
    (routed : s.indexOf body.name = some g) {h : HostStateInner F} (group : s.hosts[g]? = some h)
    (coherent : h.candidates.map (·.ip) = pinIps h.bundledIps h.pinnedIp)
    (same : body.text = h.pinnedIp.map IpAddr.toString) :
    (pinGroup debug s body).2.hosts.map
        (fun h => (h.fixed, h.pinnedIp, h.candidates.map (·.ip))) =
      s.hosts.map fun h => (h.fixed, h.pinnedIp, h.candidates.map (·.ip)) := by
  obtain ⟨ip, target, text⟩ := PinGroupBody.target_of_valid valid
  -- equal texts are equal addresses
  obtain rfl : ip = h.pinnedIp :=
    Option.map_injective (fun _ _ => IpAddr.toString_injective) (text.trans same)
  obtain ⟨ips, pinned⟩ := pinTarget_of_indexOf bundled routed h.pinnedIp
  have written : (pinGroup debug s body).2 = (s.setPinnedIp body.name h.pinnedIp).2 := by
    rw [pinGroup_snd, postCall, target]
    rfl
  apply List.ext_getElem?
  intro j
  rw [written, List.getElem?_map, List.getElem?_map]
  by_cases here : j = g
  · subst here
    rw [getElem?_setPinnedIp pinned, group, pinTarget_ips pinned group]
    simp [HostStateInner.fixed, freshCandidates, Function.comp_def, coherent]
  · rw [getElem?_setPinnedIp_of_ne]
    rw [routed]
    exact fun equal => here (Option.some.inj equal).symm

/-- Pressing the button of a group with the text the dashboard shows, in any state of the
program, is accepted and leaves the pins and the addresses of all groups as they are. -/
theorem post_shown [Float64 F] {xboxCn1 xboxCn2 : String} {pinCn1 pinCn2 : EnvVar}
    {loaded : LoadedEndpoints} (h : load xboxCn1 xboxCn2 pinCn1 pinCn2 = .ok loaded)
    (penalty : Nat) (debug : String → String) (taken : List (SelectorStep F)) (clock : Nat → Nat) :
    let s := steps debug (new (F := F) loaded.hosts penalty) taken
    ∀ shown ∈ s.snapshot clock,
      let answer := pinGroup debug s (pinGroupPost shown.name (pinInput shown))
      answer.1 = .ok (shown.pinnedIp.map IpAddr.toString) ∧
      answer.2.hosts.map (fun h => (h.fixed, h.pinnedIp, h.candidates.map (·.ip))) =
        s.hosts.map fun h => (h.fixed, h.pinnedIp, h.candidates.map (·.ip)) := by
  intro s shown member answer
  have wellFormed := wellFormed_load h
  have reachable : Reachable loaded.hosts penalty s := by
    change Reachable loaded.hosts penalty (steps debug _ taken)
    rw [steps_eq_runCalls]
    exact reachable_runCalls _ _ _
  have bundled := bundledIps_of_sameGroups wellFormed reachable.sameGroups
  obtain ⟨g, bound, rfl⟩ := List.mem_mapIdx.mp member
  have group : s.hosts[g]? = some s.hosts[g] := List.getElem?_eq_getElem bound
  obtain ⟨here, found, sameDef, bundledIps, ips, posted⟩ :=
    group_of_steps wellFormed penalty debug taken (reachable.fixed group).1
  obtain rfl : s.hosts[g] = here := Option.some.inj (group.symm.trans found)
  have routed : s.indexOf s.hosts[g].hostDef.name = some g :=
    namesRouted_load h reachable g _ group
  have quad : ∀ text, (s.hosts[g].pinnedIp).map IpAddr.toString = some text → DottedQuad text :=
    fun text shown => lastPosted_valid (posted.symm.trans shown)
  have text := text_pinGroupPost (snapshotGroup s.hosts[g] (clock g) s.failurePenalty) quad
  have valid : (pinGroupPost s.hosts[g].hostDef.name
      (pinInput (snapshotGroup s.hosts[g] (clock g) s.failurePenalty))).Valid :=
    fun raw sent => quad raw (text.symm.trans sent)
  refine ⟨?_, pinGroup_same bundled debug valid routed group (by rw [ips, bundledIps]) text⟩
  change (pinGroup debug s (pinGroupPost s.hosts[g].hostDef.name _)).1 = _
  rw [pinGroup_fst bundled, if_pos valid, if_pos (by rw [pinGroupPost, routed]; rfl)]
  exact congrArg _ text

/-- The button pressed for a group pinned over the dashboard, and for one that is not. -/
theorem post_shown_pinned :
    ∃ loaded, load "114.105.125.22\t(CN)" "60.167.226.211" (.ok none) (.ok none) = .ok loaded ∧
      let s := steps id (new (F := ℚ) loaded.hosts 60)
        [.pinGroup ⟨"xbox-assets", some "9.9.9.9"⟩]
      ∀ shown ∈ s.snapshot fun _ => 1000,
        (pinGroup id s (pinGroupPost shown.name (pinInput shown))).1 =
          .ok (shown.pinnedIp.map IpAddr.toString) := by
  obtain ⟨loaded, ok⟩ : ∃ loaded,
      load "114.105.125.22\t(CN)" "60.167.226.211" (.ok none) (.ok none) = .ok loaded := ⟨_, rfl⟩
  refine ⟨loaded, ok, fun shown member => ?_⟩
  exact (post_shown ok 60 id [.pinGroup ⟨"xbox-assets", some "9.9.9.9"⟩] (fun _ => 1000)
    shown member).1

end Dashboard
end XboxProxy
