import XboxProxy.Service.Proofs.Listing
import XboxProxy.Service.Restart

/-!
# What the dashboard shows after restarts

What is lost is what was queued, and the rest of the command in hand; the statements that the
writers of all processes have executed are listed, each table by its own, as if one writer had
executed them.
-/

namespace XboxProxy
open Misc

/-! ## The statements as logs -/

section Log
variable {F : Type}

def Statement.Fits : Statement F → Prop
  | insertRequest r => r.Fits
  | insertSpeedTest s => s.Fits
  | deleteRequests _ => True
  | deleteSpeedtests _ => True

instance (st : Statement F) : Decidable st.Fits :=
  match st with
  | .insertRequest _ => inferInstanceAs (Decidable (_ ∧ _ ∧ _))
  | .insertSpeedTest s => inferInstanceAs (Decidable (∀ latency ∈ s.latencyMs, latency < 2 ^ 64))
  | .deleteRequests _ => .isTrue trivial
  | .deleteSpeedtests _ => .isTrue trivial

/-- The requests as a log of the statements on their table. -/
def requestStatements : LogPolicy (Statement F) (RequestRecord F) where
  added
    | .insertRequest r => some r
    | _ => none
  expires
    | .deleteRequests cutoff, r => decide (r.ts < cutoff)
    | _, _ => false

/-- The speed tests as a log of the statements on their table. -/
def speedtestStatements : LogPolicy (Statement F) (SpeedTestRecord F) where
  added
    | .insertSpeedTest s => some s
    | _ => none
  expires
    | .deleteSpeedtests cutoff, s => decide (s.ts < cutoff)
    | _, _ => false

theorem fits_of_requestStatements {statements : List (Statement F)}
    (fits : ∀ st ∈ statements, st.Fits) : ∀ r ∈ requestStatements.retained statements, r.Fits := by
  intro r member
  obtain ⟨st, executed, added⟩ := requestStatements.added_of_mem_retained member
  cases st with
  | insertRequest r' =>
    obtain rfl : r' = r := by simpa [requestStatements] using added
    exact fits _ executed
  | _ => cases added

theorem fits_of_speedtestStatements {statements : List (Statement F)}
    (fits : ∀ st ∈ statements, st.Fits) :
    ∀ s ∈ speedtestStatements.retained statements, s.Fits := by
  intro s member
  obtain ⟨st, executed, added⟩ := speedtestStatements.added_of_mem_retained member
  cases st with
  | insertSpeedTest s' =>
    obtain rfl : s' = s := by simpa [speedtestStatements] using added
    exact fits _ executed
  | _ => cases added

/-- A statement does to the requests what it does to their log. -/
theorem execute_requests (db : Database F) (log : List (RequestRecord F)) (st : Statement F)
    (holds : HoldsRequests db log) :
    HoldsRequests (db.execute st) (requestStatements.advance st log) := by
  unfold HoldsRequests LogPolicy.advance at *
  cases st with
  | insertRequest r =>
    obtain ⟨t, inserted, after⟩ := holds.insert (e := r) rfl (insertRequest_allowed r)
    simpa [Database.execute, inserted, requestStatements] using after
  | insertSpeedTest s =>
    cases inserted : db.speedtests.insert insertSpeedTestNames (insertSpeedTestParams s) <;>
      simpa [Database.execute, inserted, requestStatements] using holds
  | deleteRequests cutoff =>
    have after := holds.delete fun row r same =>
      SqlRow.less_of_integer (ts_of_requestValues same) cutoff
    simpa [Database.execute, requestStatements] using after
  | deleteSpeedtests cutoff => simpa [Database.execute, requestStatements] using holds

/-- And to the speed tests what it does to theirs. -/
theorem execute_speedtests (db : Database F) (log : List (SpeedTestRecord F)) (st : Statement F)
    (holds : HoldsSpeedtests db log) :
    HoldsSpeedtests (db.execute st) (speedtestStatements.advance st log) := by
  unfold HoldsSpeedtests LogPolicy.advance at *
  cases st with
  | insertRequest r =>
    cases inserted : db.requests.insert insertRequestNames (insertRequestParams r) <;>
      simpa [Database.execute, inserted, speedtestStatements] using holds
  | insertSpeedTest s =>
    obtain ⟨t, inserted, after⟩ := holds.insert (e := s) rfl (insertSpeedTest_allowed s)
    simpa [Database.execute, inserted, speedtestStatements] using after
  | deleteRequests cutoff => simpa [Database.execute, speedtestStatements] using holds
  | deleteSpeedtests cutoff =>
    have after := holds.delete fun row s same =>
      SqlRow.less_of_integer (ts_of_speedtestValues same) cutoff
    simpa [Database.execute, speedtestStatements] using after

end Log

section Listing
variable {F : Type} [Float64 F]

/-- The listings show the newest records that each table's statements have left of it. -/
def Database.Lists (db : Database F) (statements : List (Statement F)) : Prop :=
  ∀ q : LimitQuery,
    Dashboard.requests (.ok db) q =
      .json (((requestStatements.retained statements).filter fun r =>
        q.since.all fun s => decide (s ≤ r.ts)).reverse.take q.clamped.toNat) ∧
    Dashboard.speedtests (.ok db) q =
      .json ((speedtestStatements.retained statements).reverse.take q.clamped.toNat)

theorem lists_execute {statements : List (Statement F)} (fits : ∀ st ∈ statements, st.Fits) :
    (statements.foldl Database.execute .init).Lists statements := by
  intro q
  have noRequests : HoldsRequests (.init : Database F) [] := SqlTable.holds_create _ _
  have noSpeedtests : HoldsSpeedtests (.init : Database F) [] := SqlTable.holds_create _ _
  constructor
  · simp only [Dashboard.requests, Dashboard.answer]
    rw [recentRequests_eq (requestStatements.holds_retained noRequests execute_requests statements)
      (fits_of_requestStatements fits), Service.clamped_limit]
  · simp only [Dashboard.speedtests, Dashboard.answer]
    rw [recentSpeedtests_eq (speedtestStatements.holds_retained noSpeedtests execute_speedtests
      statements) (fits_of_speedtestStatements fits), Service.clamped_limit]

end Listing

/-! ## One process -/

namespace Process
variable {F E : Type}

/-- The statements of all commands sent. -/
def sent (p : Process F) : List (Statement F) :=
  p.service.metrics.dbTx.flatMap DbCommand.statements

/-- The commands still queued. -/
def queued (p : Process F) : List (DbCommand F) := p.service.writer.queued p.service.metrics.dbTx

/-- The statements executed: those of the commands taken, without the ones pending. -/
def executed (p : Process F) : List (Statement F) :=
  let taken := (p.service.metrics.dbTx.take p.service.writer.taken).flatMap DbCommand.statements
  taken.take (taken.length - p.pending.length)

/-- The database is what the statements executed have made of the one that was opened, and what
is pending is the rest of the last command taken. -/
structure Follows (first : Database F) (p : Process F) : Prop where
  bound : p.service.writer.taken ≤ p.service.metrics.dbTx.length
  taken : (p.service.metrics.dbTx.take p.service.writer.taken).flatMap DbCommand.statements =
    p.executed ++ p.pending
  store : p.service.writer.store = p.executed.foldl Database.execute first
  inHand : p.pending ≠ [] → ∃ c, p.pending <:+ c.statements ∧
    p.service.metrics.dbTx[p.service.writer.taken - 1]? = some c

variable {first : Database F} {p t : Process F}

theorem Follows.of_split (done : List (Statement F))
    (bound : p.service.writer.taken ≤ p.service.metrics.dbTx.length)
    (taken : (p.service.metrics.dbTx.take p.service.writer.taken).flatMap DbCommand.statements =
      done ++ p.pending)
    (store : p.service.writer.store = done.foldl Database.execute first)
    (inHand : p.pending ≠ [] → ∃ c, p.pending <:+ c.statements ∧
      p.service.metrics.dbTx[p.service.writer.taken - 1]? = some c) : p.Follows first := by
  have same : p.executed = done := by
    unfold executed
    rw [taken]
    simp
  exact ⟨bound, same ▸ taken, same ▸ store, inHand⟩

/-- What is sent is executed, pending or queued. -/
theorem Follows.sent (follows : p.Follows first) :
    p.sent = p.executed ++ p.pending ++ p.queued.flatMap DbCommand.statements := by
  rw [← follows.taken, ← List.flatMap_append]
  unfold Process.sent Process.queued Consumer.queued
  rw [List.take_append_drop]

variable [Float64 F] {display : E → String}

omit [Float64 F] in
theorem follows_startOn (file : DatabaseFile F) : (startOn file).Follows file.init :=
  .of_split [] (Nat.zero_le _) rfl rfl fun pending => absurd rfl pending

theorem Follows.step {a : ServiceAction F E} (follows : p.Follows first)
    (stepped : p.step display a = some t) : t.Follows first := by
  by_cases writes : a = .write
  · subst writes
    unfold Process.step at stepped
    cases pending : p.pending with
    | cons st rest =>
      simp only [pending] at stepped
      obtain rfl := Option.some.inj stepped
      have taken := follows.taken
      rw [pending] at taken
      refine .of_split (p.executed ++ [st]) follows.bound ?_ ?_ fun _ => ?_
      · rw [List.append_assoc]
        exact taken
      · rw [List.foldl_append, ← follows.store]
        rfl
      · obtain ⟨c, suffix, last⟩ := follows.inHand (by simp [pending])
        rw [pending] at suffix
        exact ⟨c, (List.suffix_cons st rest).trans suffix, last⟩
    | nil =>
      simp only [pending] at stepped
      obtain ⟨c, next, rfl⟩ := Option.map_eq_some_iff.mp stepped
      have taken := follows.taken
      rw [pending, List.append_nil] at taken
      refine .of_split p.executed ?_ ?_ follows.store fun _ => ?_
      · exact (List.getElem?_eq_some_iff.mp next).1
      · show (p.service.metrics.dbTx.take (p.service.writer.taken + 1)).flatMap _ = _
        rw [List.take_add_one, next, List.flatMap_append, taken]
        simp [withWriter]
      · exact ⟨c, List.suffix_refl _, next⟩
  · have other : p.step display a = (p.service.step display a).map fun service =>
        { p with service } := by
      cases a <;> first | rfl | exact absurd rfl writes
    rw [other] at stepped
    obtain ⟨service, moved, rfl⟩ := Option.map_eq_some_iff.mp stepped
    obtain ⟨more, dbTx, writer⟩ := Service.sent_of_step writes moved
    refine .of_split p.executed ?_ ?_ ?_ fun pending => ?_
    · rw [writer, dbTx, List.length_append]
      exact Nat.le_add_right_of_le follows.bound
    · rw [writer, dbTx, List.take_append_of_le_length follows.bound]
      exact follows.taken
    · rw [writer]
      exact follows.store
    · obtain ⟨c, suffix, last⟩ := follows.inHand pending
      refine ⟨c, suffix, ?_⟩
      rw [writer, dbTx]
      exact List.getElem?_append_left (List.getElem?_eq_some_iff.mp last).1 ▸ last

theorem follows_of_run {actions : List (ServiceAction F E)} (follows : p.Follows first)
    (reached : run (Process.step display) p actions = some t) : t.Follows first :=
  run_invariant (fun _ _ _ follows stepped => Follows.step follows stepped) follows reached

/-! ## The writer alone -/

/-- The turns of the writer before it has executed all that is sent. -/
def turnsLeft (p : Process F) : Nat :=
  p.pending.length + (p.queued.map fun c => c.statements.length + 1).sum

theorem run_pending (display : E → String) (p : Process F) :
    run (Process.step display) p (List.replicate p.pending.length .write) =
      some (p.withWriter p.service.writer.taken
        (p.pending.foldl Database.execute p.service.writer.store) []) := by
  obtain ⟨service, pending⟩ := p
  induction pending generalizing service with
  | nil => rfl
  | cons st rest ih => exact ih { service with writer.store := service.writer.store.execute st }

theorem run_queued (display : E → String) (p : Process F) (idle : p.pending = []) :
    run (Process.step display) p
        (List.replicate (p.queued.map fun c => c.statements.length + 1).sum .write) =
      some (p.withWriter (p.service.writer.taken + p.queued.length)
        ((p.queued.flatMap DbCommand.statements).foldl Database.execute p.service.writer.store)
        []) := by
  obtain ⟨service, pending⟩ := p
  obtain rfl : pending = [] := idle
  generalize split : (Process.mk service []).queued = commands
  induction commands generalizing service with
  | nil => rfl
  | cons c commands ih =>
    have next : service.metrics.dbTx[service.writer.taken]? = some c := by
      have head := congrArg List.head? split
      rwa [Process.queued, Consumer.queued, List.head?_drop] at head
    have rest : service.metrics.dbTx.drop (service.writer.taken + 1) = commands := by
      have tail := congrArg List.tail split
      rwa [Process.queued, Consumer.queued, List.tail_drop] at tail
    let one : Process F := (Process.mk service []).withWriter (service.writer.taken + 1)
      service.writer.store c.statements
    have first : Process.step display (Process.mk service []) .write = some one := by
      simp only [Process.step, next, Option.map_some]
      rfl
    have turns : List.replicate ((c :: commands).map fun c => c.statements.length + 1).sum
        (.write : ServiceAction F E) =
          .write :: (List.replicate one.pending.length .write ++
            List.replicate (commands.map fun c => c.statements.length + 1).sum .write) := by
      rw [List.replicate_append_replicate, ← List.replicate_succ]
      congr 1
      simp only [List.map_cons, List.sum_cons]
      show _ = c.statements.length + _ + 1
      omega
    have later := ih { service with
      writer := ⟨service.writer.taken + 1, c.statements.foldl Database.execute service.writer.store⟩ }
      rest
    rw [turns, run_cons, first, Option.bind_some, run_append, run_pending, Option.bind_some]
    refine later.trans ?_
    simp only [withWriter, List.length_cons, List.flatMap_cons, List.foldl_append]
    rw [Nat.add_assoc, Nat.add_comm 1]

/-- Left to itself, the writer executes all that is pending and queued. -/
theorem Follows.drain (follows : p.Follows first) (display : E → String) :
    ∃ t, run (Process.step display) p (List.replicate p.turnsLeft .write) = some t ∧
      t.service.writer.store = p.sent.foldl Database.execute first := by
  let idle := p.withWriter p.service.writer.taken
    (p.pending.foldl Database.execute p.service.writer.store) []
  have first : run (Process.step display) p (List.replicate p.turnsLeft .write) =
      run (Process.step display) idle
        (List.replicate (idle.queued.map fun c => c.statements.length + 1).sum .write) := by
    rw [turnsLeft, ← List.replicate_append_replicate, run_append, run_pending, Option.bind_some]
    rfl
  refine ⟨_, first.trans (run_queued display idle rfl), ?_⟩
  rw [follows.sent, List.foldl_append, List.foldl_append, ← follows.store]
  rfl

end Process

/-! ## One process after another -/

section Lives
variable {F E : Type} [Float64 F]

/-- What all writers have executed. -/
def executedBy (states : List (Process F)) : List (Statement F) := states.flatMap Process.executed

omit [Float64 F] in
/-- A process that ends in `init` leaves the next one what it has found. -/
theorem init_opened (file : DatabaseFile F) (created : Nat) :
    (file.opened created).init = file.init := by
  obtain ⟨requests, speedtests⟩ := file
  simp only [DatabaseFile.init, DatabaseFile.opened]
  congr 1
  · split <;> rfl
  · split <;> rfl

/-- Each process goes on where the writers before it have left off. -/
theorem follows_of_lives {display : E → String} {file : DatabaseFile F}
    {past : List (Statement F)} (opened : file.init = past.foldl Database.execute .init)
    {lives : List (Life F E)} {earlier later : List (Process F)} {p : Process F}
    (ran : runLives display file lives = some (earlier ++ p :: later)) :
    p.Follows ((past ++ executedBy earlier).foldl Database.execute .init) := by
  induction lives generalizing file past earlier with
  | nil =>
    have none := Option.some.inj ran
    simp at none
  | cons life lives ih =>
    cases life with
    | opening created => exact ih ((init_opened file created).trans opened) ran
    | serving actions =>
      simp only [runLives, Option.bind_eq_bind, Option.bind_eq_some_iff, Option.pure_def,
        Option.some.injEq] at ran
      obtain ⟨t, reached, rest, after, split⟩ := ran
      have follows := Process.follows_of_run (Process.follows_startOn file) reached
      rw [opened] at follows
      cases earlier with
      | nil =>
        obtain ⟨rfl, -⟩ := List.cons.inj split
        simpa [executedBy] using follows
      | cons u earlier =>
        obtain ⟨rfl, rfl⟩ := List.cons.inj split
        have kept : t.service.writer.store.file.init =
            (past ++ t.executed).foldl Database.execute .init := by
          rw [List.foldl_append]
          exact follows.store
        have next := ih kept after
        rwa [List.append_assoc] at next

/-- However often the program has been restarted, and wherever its processes have ended: what a
process has sent it has executed, but for the commands queued and the rest of one command;
the listings show the newest records that the statements executed by all writers have left;
and once the writer has executed what is pending and queued, those that these and everything
the last process has sent leave. -/
theorem listed_over_restarts (display : E → String) (lives : List (Life F E))
    (earlier : List (Process F)) (p : Process F)
    (ran : runLives display ⟨none, none⟩ lives = some (earlier ++ [p]))
    (fits : ∀ st ∈ executedBy earlier ++ p.sent, st.Fits) :
    (∀ u ∈ earlier ++ [p],
      u.sent = u.executed ++ u.pending ++ u.queued.flatMap DbCommand.statements ∧
      (u.pending ≠ [] → ∃ c, u.pending <:+ c.statements ∧
        u.service.metrics.dbTx[u.service.writer.taken - 1]? = some c)) ∧
    p.service.writer.store.Lists (executedBy (earlier ++ [p])) ∧
    ∃ t, run (Process.step display) p (List.replicate p.turnsLeft .write) = some t ∧
      t.service.writer.store.Lists (executedBy earlier ++ p.sent) := by
  have opened : (⟨none, none⟩ : DatabaseFile F).init =
      ([] : List (Statement F)).foldl Database.execute .init := rfl
  have follows : p.Follows ((executedBy earlier).foldl Database.execute .init) :=
    follows_of_lives opened ran
  refine ⟨fun u member => ?_, ?_, ?_⟩
  · obtain ⟨before, after, split⟩ := List.append_of_mem member
    have each := follows_of_lives opened (split ▸ ran)
    exact ⟨each.sent, each.inHand⟩
  · have all : executedBy (earlier ++ [p]) = executedBy earlier ++ p.executed := by
      simp [executedBy]
    rw [follows.store, ← List.foldl_append, all]
    refine lists_execute fun st member => fits st ?_
    rcases List.mem_append.mp member with before | here
    · exact List.mem_append_left _ before
    · rw [follows.sent]
      simp [here]
  · obtain ⟨t, drained, store⟩ := follows.drain display
    refine ⟨t, drained, ?_⟩
    rw [store, ← List.foldl_append]
    exact lists_execute fits

/-- The process ends between the two deletions of a cleanup. -/
def sweeping : List (ServiceAction ℚ String) :=
  [.fail ⟨"192.168.1.20", "d1.xboxlive.cn", "/0/c", "GET", 502, none, false, 0⟩
      (some "connection refused") 10 ⟨100, 1 / 10⟩,
    .speedtest ⟨10, "d1.xboxlive.cn", "1.1.1.1", some 40, some 1000, true⟩,
    .tick 700011, .write, .write, .write, .write, .write, .write]

/-- The state it ends in. -/
def swept : Process ℚ :=
  (run (Process.step id) (.startOn ⟨none, none⟩) sweeping).getD (.startOn ⟨none, none⟩)

/-- The process ends while its second failure is queued. -/
def brokenOff : List (ServiceAction ℚ String) :=
  [.fail ⟨"192.168.1.20", "d1.xboxlive.cn", "/0/d", "GET", 502, none, false, 0⟩
      (some "connection refused") 700020 ⟨100, 1 / 10⟩,
    .write, .write,
    .fail ⟨"192.168.1.20", "d1.xboxlive.cn", "/0/e", "GET", 502, none, false, 0⟩
      (some "connection refused") 700021 ⟨100, 1 / 10⟩]

/-- The state it ends in, on the file the other one has left. -/
def broken : Process ℚ :=
  (run (Process.step id) (.startOn swept.service.writer.store.file) brokenOff).getD
    (.startOn ⟨none, none⟩)

theorem listed_over_restarts_swept :
    swept.pending = [.deleteSpeedtests 95211] ∧
    (∃ records, Dashboard.requests (.ok broken.service.writer.store) ⟨none, none⟩ =
      .json records ∧ records.map (·.path) = ["/0/d"]) ∧
    ∃ tests, Dashboard.speedtests (.ok broken.service.writer.store) ⟨none, none⟩ =
      .json tests ∧ tests.map (·.ip) = ["1.1.1.1"] := by
  have ran : runLives id ⟨none, none⟩ [.serving sweeping, .opening 1, .serving brokenOff] =
      some ([swept] ++ [broken]) := rfl
  have fits : ∀ st ∈ executedBy [swept] ++ broken.sent, st.Fits := by decide +kernel
  have lists := (listed_over_restarts id _ [swept] broken ran fits).2.1 ⟨none, none⟩
  exact ⟨rfl, ⟨_, lists.1, by decide +kernel⟩, _, lists.2, by decide +kernel⟩

end Lives
end XboxProxy
