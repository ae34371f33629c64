import XboxProxy.Proxy.Proofs.HopByHop
import XboxProxy.Speedtest.Measure

/-!
# Window and verdict of a measurement

The window always lies within the file, whatever the chunk size and the random number. Of a body,
the loop takes the frames that come in time and before the chunk is full, counts them up to the
chunk, and the measurement succeeds if one of them was not empty.
-/

namespace XboxProxy
open Misc

/-! ## The window -/

theorem toNat_totalSize : totalSize.toNat = 30 * 1024 * 1024 := by decide

theorem toNat_chunk (cfg : MeasureConfig) :
    cfg.chunk.toNat = max 1 (min cfg.testChunkBytes.toNat (30 * 1024 * 1024)) := by
  unfold MeasureConfig.chunk
  rw [toNat_clamp _ (by decide), toNat_totalSize]
  rfl

/-- The start leaves room for the chunk. -/
theorem rangeFrom_spec (cfg : MeasureConfig) (draw : UInt64) :
    ∃ start, rangeFrom cfg draw = some start ∧
      start.toNat + cfg.chunk.toNat ≤ 30 * 1024 * 1024 := by
  have chunk := toNat_chunk cfg
  have maxStart : (saturatingSub totalSize cfg.chunk).toNat =
      30 * 1024 * 1024 - cfg.chunk.toNat := by
    rw [toNat_saturatingSub, toNat_totalSize]
  have one : (1 : UInt64).toNat = 1 := rfl
  unfold rangeFrom
  by_cases only : saturatingSub totalSize cfg.chunk = 0
  · refine ⟨0, if_pos only, ?_⟩
    rw [UInt64.toNat_zero]
    omega
  · obtain ⟨starts, sum, count⟩ := exists_checkedAdd (b := 1)
      (show (saturatingSub totalSize cfg.chunk).toNat + (1 : UInt64).toNat < 2 ^ 64 by omega)
    have below : (draw % starts).toNat < starts.toNat := by
      rw [UInt64.toNat_mod]
      exact Nat.mod_lt _ (by omega)
    refine ⟨draw % starts, ?_, by omega⟩
    simp only [if_neg only, sum, Option.map_some]

/-- The window is as long as the chunk and within the file, and no step overflows. -/
theorem measureRange_spec (cfg : MeasureConfig) (draw : UInt64) :
    ∃ start rangeTo, measureRange cfg draw = some (start, rangeTo) ∧
      start.toNat ≤ rangeTo.toNat ∧ rangeTo.toNat < 30 * 1024 * 1024 ∧
      rangeTo.toNat - start.toNat + 1 = cfg.chunk.toNat := by
  have chunk := toNat_chunk cfg
  have one : (1 : UInt64).toNat = 1 := rfl
  obtain ⟨start, found, room⟩ := rangeFrom_spec cfg draw
  obtain ⟨after, sum, afterNat⟩ :=
    exists_checkedAdd (show start.toNat + cfg.chunk.toNat < 2 ^ 64 by omega)
  obtain ⟨rangeTo, last, rangeToNat⟩ :=
    exists_checkedSub (show (1 : UInt64).toNat ≤ after.toNat by omega)
  refine ⟨start, rangeTo, ?_, by omega, by omega, by omega⟩
  simp only [measureRange, found, sum, last, Option.bind_eq_bind, Option.bind_some,
    Option.pure_def]

/-- A request that is sent asks for the window. -/
theorem range_measureRequest {cfg : MeasureConfig} {testUrl : Uri} {draw start rangeTo : UInt64}
    {request : Request Unit} (window : measureRange cfg draw = some (start, rangeTo))
    (sent : measureRequest cfg testUrl draw = some request) :
    (request.headers.get .range).bind HeaderValue.toStr = some s!"bytes={start}-{rangeTo}" := by
  simp only [measureRequest, window, Option.bind_eq_bind, Option.bind_some,
    Option.bind_eq_some_iff, Option.pure_def, Option.some.injEq] at sent
  obtain ⟨host, -, range, made, userAgent, -, rfl⟩ := sent
  have others : HeaderName.host ≠ .range ∧ HeaderName.userAgent ≠ .range := by decide
  simp only [Multimap.get, Multimap.getAll_append, if_neg others.1, if_neg others.2, if_pos]
  exact toStr_of_fromStr made

/-! ## The read loop -/

/-- A frame, read before the time is up. -/
def ReadTurn.inTime (timeout : Nat) (turn : ReadTurn) : Bool :=
  match turn.event with
  | .frame _ => decide (turn.elapsed < timeout)
  | _ => false

/-- The size of a frame. -/
def ReadTurn.size (turn : ReadTurn) : Nat :=
  match turn.event with
  | .frame len => len.toNat
  | _ => 0

/-- The sizes of the frames before the first of error, end and timeout. -/
def framesInTime (timeout : Nat) (turns : List ReadTurn) : List Nat :=
  (turns.takeWhile (·.inTime timeout)).map (·.size)

/-- Of the frames, `taken` are those that come before `room` is full. -/
structure TakenUpTo (room : Nat) (frames taken : List Nat) : Prop where
  first : taken <+: frames
  early : ∀ front f back, taken = front ++ f :: back → front.sum < room
  full : taken = frames ∨ room ≤ taken.sum

theorem TakenUpTo.nil_of_full (frames : List Nat) : TakenUpTo 0 frames [] where
  first := List.nil_prefix
  early := by simp
  full := .inr (Nat.zero_le _)

theorem TakenUpTo.nil (room : Nat) : TakenUpTo room [] [] where
  first := List.nil_prefix
  early := by simp
  full := .inl rfl

/-- A frame that comes before the room is full takes up to all of it. -/
theorem TakenUpTo.cons {room f : Nat} {frames taken : List Nat} (space : 0 < room)
    (rest : TakenUpTo (room - f) frames taken) : TakenUpTo room (f :: frames) (f :: taken) where
  first := List.cons_prefix_cons.mpr ⟨rfl, rest.first⟩
  early := by
    intro front g back split
    cases front with
    | nil => exact space
    | cons head front =>
      obtain ⟨rfl, tail⟩ := List.cons.inj split
      have below := rest.early front g back tail
      rw [List.sum_cons]
      omega
  full := by
    rcases rest.full with all | full
    · exact .inl (by rw [all])
    · right
      rw [List.sum_cons]
      omega

/-- The loop counts the frames it takes, up to the chunk. -/
theorem readLoop_spec (chunk : UInt64) (timeout : Nat) (turns : List ReadTurn) {bytes : UInt64}
    (bounded : bytes.toNat ≤ chunk.toNat) :
    ∃ taken, TakenUpTo (chunk.toNat - bytes.toNat) (framesInTime timeout turns) taken ∧
      (readLoop chunk timeout turns bytes).toNat = min chunk.toNat (bytes.toNat + taken.sum) := by
  induction turns generalizing bytes with
  | nil => exact ⟨[], .nil _, by simpa [readLoop] using bounded⟩
  | cons turn turns ih =>
    by_cases full : chunk ≤ bytes
    · have level : chunk.toNat - bytes.toNat = 0 := by
        rw [UInt64.le_iff_toNat_le] at full
        omega
      refine ⟨[], level ▸ .nil_of_full _, ?_⟩
      rw [readLoop, if_pos full, List.sum_nil]
      omega
    · have space : 0 < chunk.toNat - bytes.toNat := by
        rw [UInt64.le_iff_toNat_le] at full
        omega
      -- the turns without a frame that counts end the loop with what it has
      have stops : turn.inTime timeout = false →
          readLoop chunk timeout (turn :: turns) bytes = bytes →
          ∃ taken, TakenUpTo (chunk.toNat - bytes.toNat)
              (framesInTime timeout (turn :: turns)) taken ∧
            (readLoop chunk timeout (turn :: turns) bytes).toNat =
              min chunk.toNat (bytes.toNat + taken.sum) := by
        intro outside kept
        have none : framesInTime timeout (turn :: turns) = [] := by
          unfold framesInTime
          rw [List.takeWhile_cons_of_neg (by simp [outside]), List.map_nil]
        rw [none, kept]
        exact ⟨[], .nil _, by rw [List.sum_nil]; omega⟩
      by_cases late : timeout ≤ turn.elapsed
      · apply stops
        · unfold ReadTurn.inTime
          cases turn.event <;> simp [late]
        · rw [readLoop, if_neg full, if_pos late]
      · cases event : turn.event with
        | frame len =>
          have counted : (min (saturatingAdd bytes len) chunk).toNat =
              min (bytes.toNat + len.toNat) chunk.toNat := by
            have bound := chunk.toNat_lt
            rw [toNat_min, toNat_saturatingAdd]
            omega
          have within : turn.inTime timeout = true := by
            unfold ReadTurn.inTime
            rw [event, decide_eq_true_eq]
            omega
          have size : turn.size = len.toNat := by
            unfold ReadTurn.size
            rw [event]
          have frames : framesInTime timeout (turn :: turns) =
              len.toNat :: framesInTime timeout turns := by
            unfold framesInTime
            rw [List.takeWhile_cons_of_pos within, List.map_cons, size]
          obtain ⟨taken, rest, total⟩ := @ih (min (saturatingAdd bytes len) chunk) (by omega)
          have room : chunk.toNat - (min (saturatingAdd bytes len) chunk).toNat =
              chunk.toNat - bytes.toNat - len.toNat := by omega
          rw [room] at rest
          refine ⟨len.toNat :: taken, frames ▸ .cons space rest, ?_⟩
          rw [readLoop, if_neg full, if_neg late]
          simp only [event]
          rw [total, counted, List.sum_cons]
          omega
        | failed | ended | timedOut =>
          apply stops
          · unfold ReadTurn.inTime
            rw [event]
          · rw [readLoop, if_neg full, if_neg late]
            simp only [event]

/-! ## The verdict -/

/-- Something is read exactly if a frame that is taken has something in it. -/
theorem bytesRead_pos_iff {chunk : Nat} (space : 0 < chunk) {taken : List Nat} :
    0 < min chunk taken.sum ↔ ∃ f ∈ taken, 0 < f := by
  rw [lt_min_iff, and_iff_right space, Nat.pos_iff_ne_zero, Ne, List.sum_eq_zero_iff]
  simp [Nat.pos_iff_ne_zero]

/-- Whatever the configuration and the random number, the window asked for has the length of the
chunk and lies within the file; of a body the frames that come in time and before the chunk is full
are counted up to the chunk, and one that is not empty makes the measurement a success; and
any other answer is a failure. -/
theorem measure_spec (F : Type) [Float64 F] (cfg : MeasureConfig) (draw : UInt64) :
    (∃ start rangeTo, measureRange cfg draw = some (start, rangeTo) ∧
      start.toNat ≤ rangeTo.toNat ∧ rangeTo.toNat < 30 * 1024 * 1024 ∧
      rangeTo.toNat - start.toNat + 1 =
        max 1 (min cfg.testChunkBytes.toNat (30 * 1024 * 1024)) ∧
      ∀ testUrl request, measureRequest cfg testUrl draw = some request →
        (request.headers.get .range).bind HeaderValue.toStr =
          some s!"bytes={start}-{rangeTo}") ∧
    (∀ status latencyMs turns (elapsedSecs : F), isSuccess status = true →
      ∃ taken, TakenUpTo cfg.chunk.toNat
          (framesInTime (cfg.readTimeoutMs.toNat * 1000000) turns) taken ∧
        (cfg.bytesRead turns).toNat = min cfg.chunk.toNat taken.sum ∧
        ((measure cfg (.responded status latencyMs turns elapsedSecs)).success = true ↔
          ∃ f ∈ taken, 0 < f)) ∧
    ∀ answer : MeasureAnswer F, (∀ status latencyMs turns elapsedSecs,
        answer = .responded status latencyMs turns elapsedSecs → isSuccess status = false) →
      (measure cfg answer).success = false ∧ (measure cfg answer).speedKbps = none := by
  have chunk := toNat_chunk cfg
  refine ⟨?_, ?_, ?_⟩
  · obtain ⟨start, rangeTo, found, ordered, within, length⟩ := measureRange_spec cfg draw
    exact ⟨start, rangeTo, found, ordered, within, length.trans chunk,
      fun testUrl request sent => range_measureRequest found sent⟩
  · intro status latencyMs turns elapsedSecs success
    obtain ⟨taken, upTo, total⟩ := readLoop_spec cfg.chunk (cfg.readTimeoutMs.toNat * 1000000)
      turns (show (0 : UInt64).toNat ≤ cfg.chunk.toNat from Nat.zero_le _)
    rw [UInt64.toNat_zero, Nat.sub_zero] at upTo
    rw [UInt64.toNat_zero, Nat.zero_add] at total
    refine ⟨taken, upTo, total, ?_⟩
    have space : 0 < cfg.chunk.toNat := by omega
    rw [← bytesRead_pos_iff space, ← total]
    simp only [measure, success, Bool.not_true, Bool.false_eq_true, if_false, decide_eq_true_eq,
      UInt64.lt_iff_toNat_lt, UInt64.toNat_zero]
    rfl
  · intro answer unsuccessful
    cases answer with
    | timedOut => exact ⟨rfl, rfl⟩
    | failed e => exact ⟨rfl, rfl⟩
    | responded status latencyMs turns elapsedSecs =>
      have other := unsuccessful status latencyMs turns elapsedSecs rfl
      simp [measure, other]

/-- Half of a chunk of four bytes, as in the unit test. -/
example : (measure (F := ℚ) ⟨4, 500⟩
    (.responded 206 3 [⟨0, .frame 2⟩, ⟨900, .ended⟩] (1 / 1000))).success = true := by
  decide +kernel

end XboxProxy
