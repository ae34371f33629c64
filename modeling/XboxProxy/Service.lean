import XboxProxy.Db.Store
import XboxProxy.Misc.Channel
import XboxProxy.Misc.Components
import XboxProxy.Proxy.Stream

/-!
# From the bodies to the database (`src/main.rs`, `src/proxy.rs`, `src/metrics.rs`, `src/db.rs`)

The tasks that send to the database's channel, and the writer thread that takes from it: the
bodies the server polls and drops, handlers that answer without a body, the speed tester, and
the retention ticker. They take steps in any order. The receiver lives as long as the
process, so no send fails.
-/

namespace XboxProxy
open Misc

/-- A `CountingStream` and whether the server has dropped it. -/
structure Download where
  state : RecordState
  dropped : Bool

inductive DownloadAction (F E : Type) where
  | poll (poll : InnerPoll F E)
  | drop (env : DropEnv F)

/-- The state of a request whose record has not been sent. -/
def RecordState.fresh (requestMeta : RequestMeta) (error : Option String) : RecordState where
  requestMeta
  bytes := 0
  recorded := false
  error

/-- The metrics, the bodies handed to the server so far, and the writer thread. -/
structure Service (F : Type) where
  metrics : MetricsStore F
  downloads : List Download
  writer : Consumer (Database F)

inductive ServiceAction (F E : Type) where
  /-- A handler returns a body (`proxy.rs:539-544`). -/
  | reply (requestMeta : RequestMeta) (error : Option String)
  /-- A handler finalizes the record of its request itself (`proxy.rs:545`, `547-553`). -/
  | fail (requestMeta : RequestMeta) (error : Option String) (now : Nat) (elapsed : Elapsed F)
  /-- The server polls or drops body `k`. -/
  | download (k : Nat) (a : DownloadAction F E)
  | speedtest (rec : SpeedTestRecord F)
  /-- The retention ticker fires (`main.rs:57-70`). -/
  | tick (now : Nat)
  /-- The writer thread takes a command. -/
  | write

/-- The cutoff of a cleanup, seven days before (`main.rs:64`). -/
def retentionCutoff (now : Nat) : Int := now - 7 * 86400

section
variable {F E : Type} [Float64 F]

def Download.step (display : E → String) (metrics : MetricsStore F) (d : Download) :
    DownloadAction F E → Option (MetricsStore F × Download)
  | .poll poll =>
    if d.dropped then none
    else
      let (_, metrics, state) := CountingStream.pollNext display poll metrics d.state
      some (metrics, { d with state })
  | .drop env =>
    if d.dropped then none
    else
      let (metrics, state) := CountingStream.drop env metrics d.state
      some (metrics, ⟨state, true⟩)

namespace Service

/-- A process started on a new file. -/
def start : Service F := ⟨.new, [], ⟨0, .init⟩⟩

def step (display : E → String) (s : Service F) : ServiceAction F E → Option (Service F)
  | .reply requestMeta error =>
    some { s with downloads := s.downloads ++ [⟨.fresh requestMeta error, false⟩] }
  | .fail requestMeta error now elapsed =>
    some { s with metrics := (finalize s.metrics (.fresh requestMeta error) now elapsed).1 }
  | .download k a =>
    s.downloads[k]?.bind fun d => (d.step display s.metrics a).map fun (metrics, d) =>
      { s with metrics, downloads := s.downloads.set k d }
  | .speedtest rec => some { s with metrics := s.metrics.recordSpeedtest rec }
  | .tick now =>
    some { s with metrics :=
      { s.metrics with dbTx := s.metrics.dbTx ++ [.cleanup (retentionCutoff now)] } }
  | .write => (s.writer.receive writerStep s.metrics.dbTx).map fun writer => { s with writer }

end Service
end
end XboxProxy
