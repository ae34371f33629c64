import XboxProxy.Db.Proofs.Retention
import XboxProxy.Service

/-!
# Every body is accounted for

The bodies are components that write to the channel. Alone, a body sends one record, at the
first of error, end and drop; so however the server interleaves the bodies, and whatever else
is sent and written meanwhile, the requests sent are those records and the ones the handlers
send themselves, each once.
-/

namespace XboxProxy
open Misc

section
variable {F E : Type} [Float64 F]

/-- The record `finalize` sends (`proxy.rs:211-225`). -/
def recordOf (state : RecordState) (now : Nat) (elapsed : Elapsed F) : RequestRecord F where
  ts := now
  clientIp := state.requestMeta.clientIp
  host := state.requestMeta.host
  path := state.requestMeta.path
  method := state.requestMeta.method
  status := state.requestMeta.status
  bytes := state.bytes
  durationMs := elapsed.millis
  ttfbMs := state.requestMeta.ttfbMs
  throughputKbps :=
    if Float64.ofNat 0 < elapsed.secs then
      Float64.ofNat state.bytes * Float64.ofNat 8 / Float64.ofNat 1024 / elapsed.secs
    else Float64.ofNat 0
  upstreamIp := state.requestMeta.upstreamIp
  passthrough := state.requestMeta.passthrough
  error := state.error

theorem finalize_of_not_recorded {metrics : MetricsStore F} {state : RecordState}
    (fresh : state.recorded = false) (now : Nat) (elapsed : Elapsed F) :
    finalize metrics state now elapsed =
      (metrics.recordRequest (recordOf state now elapsed), { state with recorded := true }) := by
  unfold finalize
  rw [if_neg (by simp [fresh])]
  rfl

/-- More on the channel. -/
def MetricsStore.send (m : MetricsStore F) (commands : List (DbCommand F)) : MetricsStore F :=
  { m with dbTx := m.dbTx ++ commands }

omit [Float64 F] in
theorem MetricsStore.send_nil (m : MetricsStore F) : m.send [] = m := by
  simp [MetricsStore.send]

/-! ## A body alone -/

namespace Download

/-- What a body does by itself: its next state, and what it sends. -/
def act (display : E → String) (d : Download) (a : DownloadAction F E) :
    Option (Download × List (DbCommand F)) :=
  (d.step display .new a).map fun (metrics, d) => (d, metrics.dbTx)

/-- `finalize` only adds to the channel, and what it adds does not depend on what is there. -/
theorem finalize_send (metrics : MetricsStore F) (state : RecordState) (now : Nat)
    (elapsed : Elapsed F) :
    finalize metrics state now elapsed =
      (metrics.send (finalize .new state now elapsed).1.dbTx,
        (finalize (.new : MetricsStore F) state now elapsed).2) := by
  cases recorded : state.recorded with
  | true =>
    rw [finalize_of_recorded recorded, finalize_of_recorded recorded]
    exact Prod.ext metrics.send_nil.symm rfl
  | false =>
    rw [finalize_of_not_recorded recorded, finalize_of_not_recorded recorded]
    rfl

/-- Nor does a step of a body do anything else to the metrics. -/
theorem step_eq_act (display : E → String) (metrics : MetricsStore F) (d : Download)
    (a : DownloadAction F E) :
    d.step display metrics a =
      (d.act display a).map fun one => (metrics.send one.2, one.1) := by
  unfold act step
  cases dropped : d.dropped with
  | true => cases a <;> rfl
  | false =>
    cases a with
    | poll poll =>
      simp only [Bool.false_eq_true, if_false, Option.map_some, CountingStream.pollNext]
      split
      · exact congrArg some (Prod.ext metrics.send_nil.symm rfl)
      · rw [finalize_send metrics]
      · rw [finalize_send metrics]
      · exact congrArg some (Prod.ext metrics.send_nil.symm rfl)
    | drop env =>
      simp only [Bool.false_eq_true, if_false, Option.map_some, CountingStream.drop]
      rw [finalize_send metrics]

end Download

/-- The polls among the actions on a body. -/
def pollsOf (actions : List (DownloadAction F E)) : List (InnerPoll F E) :=
  actions.filterMap fun
    | .poll poll => some poll
    | .drop _ => none

/-- The drop among them. -/
def dropOf (actions : List (DownloadAction F E)) : Option (DropEnv F) :=
  actions.findSome? fun
    | .poll _ => none
    | .drop env => some env

/-- The clocks `finalize` reads at the first of error, end and drop. -/
def endClocks (actions : List (DownloadAction F E)) : Option (Nat × Elapsed F) :=
  ((firstEnd (pollsOf actions)).map fun poll => (poll.now, poll.elapsed)).or
    ((dropOf actions).map fun env => (env.now, env.elapsed))

/-- What has been counted before the first error or end, and the text of the error. -/
def RecordState.after (display : E → String) (state : RecordState) (polls : List (InnerPoll F E)) :
    RecordState :=
  { state with
    bytes := (state.bytes + bytesBeforeEnd polls) % 2 ^ 64
    error := ((firstEnd polls).bind (·.errorText display)).or state.error }

/-- The record of a body, once it has ended, failed or been dropped. -/
def recordAfter (display : E → String) (state : RecordState)
    (actions : List (DownloadAction F E)) : Option (RequestRecord F) :=
  (endClocks actions).map fun (now, elapsed) =>
    recordOf (state.after display (pollsOf actions)) now elapsed

omit [Float64 F] in
/-- Nothing is counted before an end that comes first. -/
theorem RecordState.after_of_stopped {display : E → String} {state : RecordState}
    (bounded : state.bytes < 2 ^ 64) {polls : List (InnerPoll F E)}
    (stopped : bytesBeforeEnd polls = 0) :
    state.after display polls =
      { state with error := ((firstEnd polls).bind (·.errorText display)).or state.error } := by
  rw [RecordState.after, stopped, Nat.add_zero, Nat.mod_eq_of_lt bounded]

namespace Download
variable {display : E → String}

theorem act_of_recorded {d d' : Download} {a : DownloadAction F E} {sent : List (DbCommand F)}
    (recorded : d.state.recorded = true) (acted : d.act display a = some (d', sent)) :
    sent = [] ∧ d'.state.recorded = true := by
  unfold act step at acted
  cases a with
  | poll poll =>
    obtain ⟨same, still⟩ :=
      CountingStream.pollNext_of_recorded display (.new : MetricsStore F) recorded poll
    simp only [Option.map_eq_some_iff, Option.ite_none_left_eq_some, Option.some.injEq,
      Prod.exists, Prod.mk.injEq] at acted
    obtain ⟨_, _, ⟨-, rfl, rfl⟩, rfl, rfl⟩ := acted
    exact ⟨by rw [same]; rfl, still⟩
  | drop env =>
    simp only [CountingStream.drop, finalize_of_recorded recorded, Option.map_eq_some_iff,
      Option.ite_none_left_eq_some, Option.some.injEq, Prod.exists, Prod.mk.injEq] at acted
    obtain ⟨_, _, ⟨-, rfl, rfl⟩, rfl, rfl⟩ := acted
    exact ⟨rfl, recorded⟩

/-- Once its record is sent, a body sends nothing. -/
theorem alone_of_recorded {d d' : Download} {actions : List (DownloadAction F E)}
    {sent : List (DbCommand F)} (recorded : d.state.recorded = true)
    (ran : Components.alone (act display) d actions = some (d', sent)) : sent = [] := by
  induction actions generalizing d sent with
  | nil =>
    obtain ⟨-, rfl⟩ : d = d' ∧ [] = sent := by simpa [Components.alone] using ran
    rfl
  | cons a actions ih =>
    simp only [Components.alone, Option.bind_eq_some_iff, Option.map_eq_some_iff, Prod.exists,
      Prod.mk.injEq] at ran
    obtain ⟨e, first, acted, e', rest, later, rfl, rfl⟩ := ran
    obtain ⟨rfl, still⟩ := act_of_recorded recorded acted
    rw [ih still later]
    rfl

/-- A dropped body is never touched again. -/
theorem alone_of_dropped {state : RecordState} {d : Download}
    {actions : List (DownloadAction F E)} {sent : List (DbCommand F)}
    (ran : Components.alone (act display) ⟨state, true⟩ actions = some (d, sent)) :
    actions = [] := by
  cases actions with
  | nil => rfl
  | cons a actions => cases a <;> simp [Components.alone, act, step] at ran

/-- Alone, a fresh body sends its record and nothing else, when it has one. -/
theorem alone_of_fresh {state : RecordState} (fresh : state.recorded = false)
    (bounded : state.bytes < 2 ^ 64) {d : Download} {actions : List (DownloadAction F E)}
    {sent : List (DbCommand F)}
    (ran : Components.alone (act display) ⟨state, false⟩ actions = some (d, sent)) :
    sent = (recordAfter display state actions).toList.map .insertRequest := by
  induction actions generalizing state sent with
  | nil =>
    obtain ⟨-, rfl⟩ : _ ∧ [] = sent := by simpa [Components.alone] using ran
    rfl
  | cons a actions ih =>
    simp only [Components.alone, Option.bind_eq_some_iff, Option.map_eq_some_iff, Prod.exists,
      Prod.mk.injEq] at ran
    obtain ⟨e, first, acted, e', rest, later, rfl, rfl⟩ := ran
    cases a with
    | poll input =>
      obtain ⟨answer, now, elapsed⟩ := input
      cases answer with
      | pending =>
        obtain ⟨rfl, rfl⟩ : ⟨state, false⟩ = e ∧ [] = first := by
          simpa [act, step, CountingStream.pollNext, MetricsStore.new] using acted
        rw [List.nil_append, ih fresh bounded later]
        have same : recordAfter display state (.poll ⟨.pending, now, elapsed⟩ :: actions) =
            recordAfter display state actions := by
          simp [recordAfter, endClocks, pollsOf, dropOf, firstEnd, RecordState.after,
            bytesBeforeEnd, InnerPoll.ends, InnerPoll.chunkLength]
        rw [same]
      | ready item =>
        cases item with
        | none =>
          simp only [act, step, CountingStream.pollNext, finalize_of_not_recorded fresh,
            Bool.false_eq_true, if_false, Option.map_some, Option.some.injEq,
            Prod.mk.injEq] at acted
          obtain ⟨rfl, rfl⟩ := acted
          have stopped :
              bytesBeforeEnd (pollsOf (.poll ⟨.ready none, now, elapsed⟩ :: actions)) = 0 := by
            simp [pollsOf, bytesBeforeEnd, InnerPoll.ends]
          rw [alone_of_recorded rfl later, recordAfter,
            RecordState.after_of_stopped bounded stopped]
          rfl
        | some chunk =>
          cases chunk with
          | ok chunk =>
            obtain ⟨rfl, rfl⟩ :
                ⟨{ state with bytes := (state.bytes + chunk.length) % 2 ^ 64 }, false⟩ = e ∧
                  [] = first := by
              simpa [act, step, CountingStream.pollNext, MetricsStore.new] using acted
            have counted := Nat.mod_lt (state.bytes + chunk.length) (by decide : 0 < 2 ^ 64)
            have unrecorded : ({ state with
                bytes := (state.bytes + chunk.length) % 2 ^ 64 } : RecordState).recorded = false :=
              fresh
            rw [List.nil_append, ih unrecorded counted later]
            have same : recordAfter display { state with
                bytes := (state.bytes + chunk.length) % 2 ^ 64 } actions = recordAfter display state
                  (.poll ⟨.ready (some (.ok chunk)), now, elapsed⟩ :: actions) := by
              simp [recordAfter, endClocks, pollsOf, dropOf, firstEnd, RecordState.after,
                bytesBeforeEnd, InnerPoll.ends, InnerPoll.chunkLength, Nat.add_assoc]
            rw [same]
          | error err =>
            -- the error is in the state before `finalize` reads it
            have still :
                ({ state with error := some (display err) } : RecordState).recorded = false := fresh
            simp only [act, step, CountingStream.pollNext, finalize_of_not_recorded still,
              Bool.false_eq_true, if_false, Option.map_some, Option.some.injEq,
              Prod.mk.injEq] at acted
            obtain ⟨rfl, rfl⟩ := acted
            have stopped : bytesBeforeEnd
                (pollsOf (.poll ⟨.ready (some (.error err)), now, elapsed⟩ :: actions)) = 0 := by
              simp [pollsOf, bytesBeforeEnd, InnerPoll.ends]
            rw [alone_of_recorded rfl later, recordAfter,
              RecordState.after_of_stopped bounded stopped]
            rfl
    | drop env =>
      simp only [act, step, CountingStream.drop, finalize_of_not_recorded fresh,
        Bool.false_eq_true, if_false, Option.map_some, Option.some.injEq, Prod.mk.injEq] at acted
      obtain ⟨rfl, rfl⟩ := acted
      obtain rfl := alone_of_dropped later
      obtain ⟨-, rfl⟩ : _ ∧ [] = rest := by simpa [Components.alone] using later
      rw [recordAfter, RecordState.after_of_stopped bounded rfl]
      rfl

end Download

/-! ## All of them -/

/-- A body handed to the server, with what the server has done with it. -/
structure Transfer (F E : Type) where
  requestMeta : RequestMeta
  error : Option String
  actions : List (DownloadAction F E)

/-- Its record, once it has ended, failed or been dropped. -/
def Transfer.record (display : E → String) (t : Transfer F E) : Option (RequestRecord F) :=
  recordAfter display (.fresh t.requestMeta t.error) t.actions

/-- The replies with a body. -/
def repliesOf (actions : List (ServiceAction F E)) : List (RequestMeta × Option String) :=
  actions.filterMap fun
    | .reply requestMeta error => some (requestMeta, error)
    | _ => none

/-- What the server does with body `k`. -/
def downloadsOf (k : Nat) (actions : List (ServiceAction F E)) : List (DownloadAction F E) :=
  actions.filterMap fun
    | .download k' a => if k' = k then some a else none
    | _ => none

/-- The bodies of a run. -/
def transfersOf (actions : List (ServiceAction F E)) : List (Transfer F E) :=
  (repliesOf actions).mapIdx fun k reply => ⟨reply.1, reply.2, downloadsOf k actions⟩

/-- The records the handlers of a run send themselves. -/
def failuresOf (actions : List (ServiceAction F E)) : List (RequestRecord F) :=
  actions.filterMap fun
    | .fail requestMeta error now elapsed =>
      some (recordOf (.fresh requestMeta error) now elapsed)
    | _ => none

/-- An action as a turn of the bodies. -/
def ServiceAction.turn : ServiceAction F E → Turn Download (DownloadAction F E) (DbCommand F)
  | .reply requestMeta error => .spawn ⟨.fresh requestMeta error, false⟩
  | .fail requestMeta error now elapsed =>
    .emit [.insertRequest (recordOf (.fresh requestMeta error) now elapsed)]
  | .download k a => .act k a
  | .speedtest rec => .emit [.insertSpeedTest rec]
  | .tick now => .emit [.cleanup (retentionCutoff now)]
  | .write => .emit []

theorem spawned_turns (actions : List (ServiceAction F E)) :
    Turn.spawned (actions.map (·.turn)) =
      (repliesOf actions).map fun reply => ⟨.fresh reply.1 reply.2, false⟩ := by
  unfold Turn.spawned repliesOf
  rw [List.filterMap_map, List.map_filterMap]
  apply List.filterMap_congr
  intro a _
  cases a <;> rfl

theorem own_turns (k : Nat) (actions : List (ServiceAction F E)) :
    Turn.own k (actions.map (·.turn)) = downloadsOf k actions := by
  unfold Turn.own downloadsOf
  rw [List.filterMap_map]
  apply List.filterMap_congr
  intro a _
  cases a <;> rfl

theorem emitted_turns (actions : List (ServiceAction F E)) :
    (Turn.emitted (actions.map (·.turn))).filterMap requestPolicy.added = failuresOf actions := by
  unfold Turn.emitted failuresOf
  induction actions with
  | nil => rfl
  | cons a actions ih =>
    rw [List.map_cons, List.flatMap_cons, List.filterMap_append, ih, List.filterMap_cons]
    cases a <;> rfl

namespace Service
variable {display : E → String}

/-- The bodies and the channel, as components with a log. -/
def components (s : Service F) : Components Download (DbCommand F) := ⟨s.downloads, s.metrics.dbTx⟩

theorem components_step {s t : Service F} {a : ServiceAction F E}
    (stepped : step display s a = some t) :
    Components.step (Download.act display) s.components a.turn = some t.components := by
  cases a with
  | reply requestMeta error =>
    obtain rfl := Option.some.inj stepped
    rfl
  | fail requestMeta error now elapsed =>
    obtain rfl := Option.some.inj stepped
    rw [finalize_of_not_recorded rfl]
    rfl
  | download k a =>
    simp only [step, Download.step_eq_act, Option.map_map, Option.bind_eq_some_iff,
      Option.map_eq_some_iff] at stepped
    obtain ⟨d, found, ⟨d', sent⟩, acted, rfl⟩ := stepped
    simp [ServiceAction.turn, Components.step, components, found, acted, MetricsStore.send]
  | speedtest rec =>
    obtain rfl := Option.some.inj stepped
    rfl
  | tick now =>
    obtain rfl := Option.some.inj stepped
    rfl
  | write =>
    obtain ⟨writer, -, rfl⟩ := Option.map_eq_some_iff.mp stepped
    simp [ServiceAction.turn, Components.step, components]

/-- What the bodies send, each by itself. -/
theorem parts_eq_transfers {actions : List (ServiceAction F E)}
    {parts : List (Download × List (DbCommand F))}
    (each : Components.Parts (Download.act display) (actions.map (·.turn)) parts) :
    parts.map Prod.snd =
      (transfersOf actions).map fun t => (t.record display).toList.map .insertRequest := by
  apply List.ext_getElem?
  intro k
  rw [List.getElem?_map, List.getElem?_map, transfersOf, List.getElem?_mapIdx]
  have length : parts.length = (repliesOf actions).length := by
    rw [each.length, spawned_turns, List.length_map]
  cases here : parts[k]? with
  | none =>
    rw [List.getElem?_eq_none_iff, length, ← List.getElem?_eq_none_iff] at here
    rw [here]
    rfl
  | some part =>
    obtain ⟨init, found, ran⟩ := each.alone k part here
    rw [spawned_turns, List.getElem?_map, Option.map_eq_some_iff] at found
    obtain ⟨reply, replied, rfl⟩ := found
    rw [own_turns] at ran
    rw [replied]
    exact congrArg some (Download.alone_of_fresh rfl (Nat.two_pow_pos 64) ran)

omit [Float64 F] in
theorem filterMap_added_records {T : Type} (record : T → Option (RequestRecord F)) (ts : List T) :
    (ts.map fun t => (record t).toList.map DbCommand.insertRequest).flatten.filterMap
      requestPolicy.added = ts.filterMap record := by
  induction ts with
  | nil => rfl
  | cons t ts ih =>
    rw [List.map_cons, List.flatten_cons, List.filterMap_append, ih, List.filterMap_cons]
    cases record t <;> rfl

/-- What is sent, when the bodies and the channel split into their parts. -/
theorem requests_of_splits {actions : List (ServiceAction F E)} {s : Service F}
    {parts : List (Download × List (DbCommand F))}
    (splits : Components.Splits (Download.act display) (actions.map (·.turn)) s.components parts) :
    (s.metrics.dbTx.filterMap requestPolicy.added).Perm
      (failuresOf actions ++ (transfersOf actions).filterMap (·.record display)) := by
  have log := splits.log.filterMap requestPolicy.added
  rw [List.filterMap_append, emitted_turns, List.flatMap_def, parts_eq_transfers splits.each,
    filterMap_added_records] at log
  exact log

theorem splits_of_run {actions : List (ServiceAction F E)} {s : Service F}
    (reached : run (step display) start actions = some s) :
    ∃ parts, Components.Splits (Download.act display) (actions.map (·.turn)) s.components parts :=
  Components.splits_of_run (run_of_simulates (fun _ _ _ => components_step) reached)

/-- However the steps of a run are interleaved, the requests sent are the records the handlers
send themselves and one for each body that has ended, failed or been dropped, with the bytes
it yielded by then. -/
theorem sent_perm_records (display : E → String) (actions : List (ServiceAction F E))
    (s : Service F) (reached : run (step display) start actions = some s) :
    (s.metrics.dbTx.filterMap requestPolicy.added).Perm
      (failuresOf actions ++ (transfersOf actions).filterMap (·.record display)) := by
  obtain ⟨parts, splits⟩ := splits_of_run reached
  exact requests_of_splits splits

end Service
end

/-- Two bodies: the first ends after the second has been dropped; a handler fails in between. -/
def overlappingRun : List (ServiceAction ℚ String) :=
  let summary : RequestMeta :=
    ⟨"192.168.1.20", "assets1.xboxlive.cn", "/0/a", "GET", 206, some "60.28.201.1", false, 12⟩
  [.reply summary none, .reply { summary with path := "/0/b" } none,
    .download 0 (.poll ⟨.ready (some (.ok [1, 2, 3])), 700001, ⟨1000, 1⟩⟩),
    .download 1 (.poll ⟨.ready (some (.ok [4])), 700002, ⟨1000, 1⟩⟩),
    .download 1 (.drop ⟨700003, ⟨2000, 2⟩⟩), .write, .tick 700004,
    .fail { summary with status := 502 } (some "connection refused") 700005 ⟨3000, 3⟩, .write,
    .download 0 (.poll ⟨.ready (some (.ok [5])), 700006, ⟨4000, 4⟩⟩),
    .download 0 (.poll ⟨.ready none, 700007, ⟨5000, 5⟩⟩),
    .download 0 (.drop ⟨700008, ⟨6000, 6⟩⟩), .write, .write]

/-- The state it reaches. -/
def overlapped : Service ℚ := (run (Service.step id) .start overlappingRun).getD .start

theorem overlapped_reached : run (Service.step id) .start overlappingRun = some overlapped := rfl

theorem sent_perm_records_overlappingRun :
    (overlapped.metrics.dbTx.filterMap requestPolicy.added).Perm (failuresOf overlappingRun ++
      (transfersOf overlappingRun).filterMap (·.record id)) :=
  Service.sent_perm_records id overlappingRun overlapped overlapped_reached

example : (failuresOf overlappingRun ++
    (transfersOf overlappingRun).filterMap (·.record id)).map (·.bytes) = [0, 4, 1] := by
  decide +kernel

end XboxProxy
