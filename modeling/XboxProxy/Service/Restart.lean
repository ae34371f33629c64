import XboxProxy.Service

/-!
# One process after another (`src/db.rs`, `src/main.rs`)

A process may end at any moment: while it opens the file, in the middle of its downloads, with
commands queued, and between the two deletions of a cleanup, for each statement is committed by
itself. Every statement that has been executed is in the file. The next process opens the file
as it is: tables that exist are kept.
-/

namespace XboxProxy
open Misc

/-- A statement of the writer thread. -/
inductive Statement (F : Type) where
  | insertRequest (rec : RequestRecord F)
  | insertSpeedTest (rec : SpeedTestRecord F)
  | deleteRequests (before : Int)
  | deleteSpeedtests (before : Int)

/-- The statements of a command, in the order of `writer_loop` (`db.rs:126-152`). -/
def DbCommand.statements {F : Type} : DbCommand F → List (Statement F)
  | insertRequest r => [.insertRequest r]
  | insertSpeedTest s => [.insertSpeedTest s]
  | cleanup cutoff => [.deleteRequests cutoff, .deleteSpeedtests cutoff]

/-- What a statement does to the file; one that fails changes nothing. -/
def Database.execute {F : Type} (db : Database F) : Statement F → Database F
  | .insertRequest r =>
    match db.requests.insert insertRequestNames (insertRequestParams r) with
    | some requests => { db with requests }
    | none => db
  | .insertSpeedTest s =>
    match db.speedtests.insert insertSpeedTestNames (insertSpeedTestParams s) with
    | some speedtests => { db with speedtests }
    | none => db
  | .deleteRequests cutoff => { db with requests := db.requests.delete (SqlRow.less "ts" cutoff) }
  | .deleteSpeedtests cutoff =>
    { db with speedtests := db.speedtests.delete (SqlRow.less "ts" cutoff) }

/-- A turn of the writer that is not cut short executes the statements of its command. -/
theorem writerStep_eq_execute {F : Type} (db : Database F) (c : DbCommand F) :
    writerStep db c = c.statements.foldl Database.execute db := by
  cases c <;> rfl

/-- The database file, with the tables that exist in it. -/
structure DatabaseFile (F : Type) where
  requests : Option (SqlTable F)
  speedtests : Option (SqlTable F)

/-- `CREATE TABLE IF NOT EXISTS`. -/
def createIfNotExists {F : Type} (columns : List (SqlColumn F)) : Option (SqlTable F) → SqlTable F
  | some table => table
  | none => .create columns

/-- `init` (`db.rs:68-103`). -/
def DatabaseFile.init {F : Type} (file : DatabaseFile F) : Database F where
  requests := createIfNotExists requestColumns file.requests
  speedtests := createIfNotExists speedtestColumns file.speedtests

/-- The file when `init` has come to the first `created` of its two tables. -/
def DatabaseFile.opened {F : Type} (file : DatabaseFile F) (created : Nat) : DatabaseFile F where
  requests :=
    if 0 < created then some (createIfNotExists requestColumns file.requests) else file.requests
  speedtests :=
    if 1 < created then some (createIfNotExists speedtestColumns file.speedtests)
    else file.speedtests

/-- The file that holds a database. -/
def Database.file {F : Type} (db : Database F) : DatabaseFile F :=
  ⟨some db.requests, some db.speedtests⟩

/-- A service whose writer executes one statement at a time: `pending` is what is left of the
command it has taken. -/
structure Process (F : Type) where
  service : Service F
  pending : List (Statement F)

namespace Process
variable {F E : Type} [Float64 F]

omit [Float64 F] in
/-- A process started on a file (`main.rs:46-68`). -/
def startOn (file : DatabaseFile F) : Process F := ⟨⟨.new, [], ⟨0, file.init⟩⟩, []⟩

/-- The process with another writer. -/
def withWriter (p : Process F) (taken : Nat) (store : Database F) (pending : List (Statement F)) :
    Process F :=
  { service := { p.service with writer := ⟨taken, store⟩ }, pending }

/-- A step; `write` takes the next command or executes the next statement of the one taken. -/
def step (display : E → String) (p : Process F) : ServiceAction F E → Option (Process F)
  | .write =>
    match p.pending with
    | statement :: rest =>
      some (p.withWriter p.service.writer.taken (p.service.writer.store.execute statement) rest)
    | [] =>
      p.service.metrics.dbTx[p.service.writer.taken]?.map fun c =>
        p.withWriter (p.service.writer.taken + 1) p.service.writer.store c.statements
  | a => (p.service.step display a).map fun service => { p with service }

end Process

/-- What a process gets done before it ends. -/
inductive Life (F E : Type) where
  /-- It ends in `init`. -/
  | opening (created : Nat)
  | serving (actions : List (ServiceAction F E))

/-- Processes one after the other on one file, each until it ends: the states in which those that
have come to serve end. -/
def runLives {F E : Type} [Float64 F] (display : E → String) :
    DatabaseFile F → List (Life F E) → Option (List (Process F))
  | _, [] => some []
  | file, .opening created :: lives => runLives display (file.opened created) lives
  | file, .serving actions :: lives => do
    let p ← run (Process.step display) (Process.startOn file) actions
    let later ← runLives display p.service.writer.store.file lives
    return p :: later

end XboxProxy
