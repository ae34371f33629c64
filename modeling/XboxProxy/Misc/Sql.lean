import XboxProxy.Misc.Float64
import XboxProxy.Misc.Clauses

/-!
# Tables of an SQL store

Rows with named columns under increasing row ids, the statements that change a table, and
what a query reads of a row or computes from several. A row is written with parameters in the
order of a column list and read back in the order of another; values are kept as they are, and
a sum of integers must stay an `i64`.
-/

namespace XboxProxy.Misc

/-- A stored value. -/
inductive SqlValue (F : Type) where
  | null
  | integer (n : Int)
  | real (x : F)
  | text (s : String)

namespace SqlValue

variable {F : Type}

def isNull : SqlValue F → Bool
  | null => true
  | _ => false

/-- A nullable parameter. -/
def ofOption {α : Type} (value : α → SqlValue F) : Option α → SqlValue F
  | some a => value a
  | none => null

end SqlValue

/-- A column of a `CREATE TABLE` statement. -/
structure SqlColumn (F : Type) where
  name : String
  notNull : Bool
  default : SqlValue F

structure SqlRow (F : Type) where
  id : Nat
  values : String → SqlValue F

/-- A table whose primary key is `INTEGER PRIMARY KEY AUTOINCREMENT`; `seq` is the greatest
id it has given out. -/
structure SqlTable (F : Type) where
  columns : List (SqlColumn F)
  rows : List (SqlRow F)
  seq : Nat
  increasing : rows.Pairwise fun a b => a.id < b.id
  bounded : ∀ row ∈ rows, row.id ≤ seq

namespace SqlTable

variable {F : Type}

/-- `CREATE TABLE`. -/
def create (columns : List (SqlColumn F)) : SqlTable F :=
  ⟨columns, [], 0, .nil, by simp⟩

/-- The value an `INSERT` gives a column: the parameter of its name, or the default. -/
def given (names : List String) (params : List (SqlValue F)) (column : SqlColumn F) :
    SqlValue F :=
  ((names.zip params).lookup column.name).getD column.default

/-- The values of an inserted row. -/
def written (columns : List (SqlColumn F)) (names : List String) (params : List (SqlValue F))
    (name : String) : SqlValue F :=
  ((columns.find? (·.name == name)).map (given names params)).getD .null

/-- `INSERT INTO .. (names) VALUES (params)`; `none` when a constraint fails. -/
def insert (t : SqlTable F) (names : List String) (params : List (SqlValue F)) :
    Option (SqlTable F) :=
  if t.columns.any fun column => column.notNull && (given names params column).isNull then none
  else
    some
      { columns := t.columns
        rows := t.rows ++ [{ id := t.seq + 1, values := written t.columns names params }]
        seq := t.seq + 1
        increasing := by
          rw [List.pairwise_append]
          refine ⟨t.increasing, List.pairwise_singleton _ _, ?_⟩
          intro row member new only
          rw [List.mem_singleton.mp only]
          exact Nat.lt_succ_of_le (t.bounded row member)
        bounded := by
          intro row member
          rcases List.mem_append.mp member with old | new
          · exact Nat.le_succ_of_le (t.bounded row old)
          · rw [List.mem_singleton.mp new] }

/-- `DELETE FROM .. WHERE`. -/
def delete (t : SqlTable F) (condition : SqlRow F → Bool) : SqlTable F where
  columns := t.columns
  rows := t.rows.filter fun row => !condition row
  seq := t.seq
  increasing := t.increasing.filter _
  bounded := fun row member => t.bounded row (List.mem_filter.mp member).1

end SqlTable

namespace SqlRow

variable {F : Type}

/-- `column < n` for an integer; NULL and other kinds of values do not satisfy it here. -/
def less (column : String) (n : Int) (row : SqlRow F) : Bool :=
  match row.values column with
  | .integer m => decide (m < n)
  | _ => false

/-- `column >= n`. -/
def atLeast (column : String) (n : Int) (row : SqlRow F) : Bool :=
  match row.values column with
  | .integer m => decide (n ≤ m)
  | _ => false

/-- `SELECT names`: the values in the order they are read. -/
def select (names : List String) (row : SqlRow F) : List (SqlValue F) := names.map row.values

theorem less_of_integer {row : SqlRow F} {column : String} {m : Int}
    (here : row.values column = .integer m) (n : Int) : row.less column n = decide (m < n) := by
  unfold less
  rw [here]

theorem atLeast_of_integer {row : SqlRow F} {column : String} {m : Int}
    (here : row.values column = .integer m) (n : Int) :
    row.atLeast column n = decide (n ≤ m) := by
  unfold atLeast
  rw [here]

end SqlRow

/-! ## Reading a selected row -/

section Get
variable {F : Type}

def getInteger (values : List (SqlValue F)) (i : Nat) : Option Int :=
  match values[i]? with
  | some (.integer n) => some n
  | _ => none

def getText (values : List (SqlValue F)) (i : Nat) : Option String :=
  match values[i]? with
  | some (.text s) => some s
  | _ => none

/-- `n as f64` for an integer of either sign. -/
def Float64.ofInt [Float64 F] (n : Int) : F :=
  if 0 ≤ n then Float64.ofNat n.toNat else Float64.ofNat 0 - Float64.ofNat (-n).toNat

/-- An integer is read as a real, too. -/
def getReal [Float64 F] (values : List (SqlValue F)) (i : Nat) : Option F :=
  match values[i]? with
  | some (.real x) => some x
  | some (.integer n) => some (Float64.ofInt n)
  | _ => none

/-- A nullable column; `none` inside is NULL. -/
def getOptional {α : Type} (get : List (SqlValue F) → Nat → Option α)
    (values : List (SqlValue F)) (i : Nat) : Option (Option α) :=
  match values[i]? with
  | some .null => some none
  | _ => (get values i).map some

end Get

/-! ## Aggregates -/

/-- The sum of `i64` values, in the order of the rows; `none` when a running sum overflows. SQLite
may take the rows in the order of an index, and then another running sum is the one to overflow. -/
def sumI64 (ns : List Int) : Option Int :=
  ns.foldlM
    (fun sum n => if -2 ^ 63 ≤ sum + n ∧ sum + n < 2 ^ 63 then some (sum + n) else none) 0

namespace SqlValue

variable {F : Type}

/-- An integer; `none` for NULL and the other kinds of values. -/
def integer? : SqlValue F → Option Int
  | integer n => some n
  | _ => none

/-- `SUM` over integers: NULL values are left out, the sum of none is NULL. -/
def sum (values : List (SqlValue F)) : Option (SqlValue F) :=
  match values.filterMap integer? with
  | [] => some null
  | ns => (sumI64 ns).map integer

/-- `AVG` over integers. -/
def avg [Float64 F] (values : List (SqlValue F)) : SqlValue F :=
  match values.filterMap integer? with
  | [] => null
  | ns => real (Float64.ofInt ns.sum / Float64.ofNat ns.length)

def coalesce (value otherwise : SqlValue F) : SqlValue F :=
  if value.isNull then otherwise else value

end SqlValue

/-- When no sum of some of the values overflows, the sum is exact. -/
theorem sumI64_eq {ns : List Int}
    (fits : ∀ l : List Int, l.Sublist ns → -2 ^ 63 ≤ l.sum ∧ l.sum < 2 ^ 63) :
    sumI64 ns = some ns.sum := by
  have running : ∀ seen rest : List Int, seen ++ rest = ns →
      rest.foldlM
        (fun sum n => if -2 ^ 63 ≤ sum + n ∧ sum + n < 2 ^ 63 then some (sum + n) else none)
        seen.sum = some ns.sum := by
    intro seen rest
    induction rest generalizing seen with
    | nil =>
      rintro rfl
      simp
    | cons n rest ih =>
      intro whole
      have next : (seen ++ [n]) ++ rest = ns := by rw [← whole, List.append_assoc]; rfl
      have small := fits (seen ++ [n]) (next ▸ List.sublist_append_left _ _)
      rw [List.sum_append, List.sum_singleton] at small
      rw [List.foldlM_cons, if_pos small]
      have advanced := ih (seen ++ [n]) next
      rw [List.sum_append, List.sum_singleton] at advanced
      exact advanced
  exact running [] ns rfl

namespace SqlValue

variable {F α : Type} {rows : List α} {expr : α → SqlValue F} {value : α → Int}

theorem filterMap_integer? (integers : ∀ row ∈ rows, expr row = integer (value row)) :
    (rows.map expr).filterMap integer? = rows.map value := by
  rw [List.filterMap_map]
  induction rows with
  | nil => rfl
  | cons row rows ih =>
    have here : (integer? ∘ expr) row = some (value row) := by
      show integer? (expr row) = _
      rw [integers row List.mem_cons_self]
      rfl
    rw [List.filterMap_cons_some here, List.map_cons,
      ih fun row' member => integers row' (List.mem_cons_of_mem row member)]

/-- `COALESCE(SUM(expr),0)` over integers. -/
theorem coalesce_sum (integers : ∀ row ∈ rows, expr row = integer (value row))
    (fits : ∀ l : List α, l.Sublist rows →
      -2 ^ 63 ≤ (l.map value).sum ∧ (l.map value).sum < 2 ^ 63) :
    (sum (rows.map expr)).map (·.coalesce (integer 0)) = some (integer (rows.map value).sum) := by
  have whole : sumI64 (rows.map value) = some (rows.map value).sum := by
    refine sumI64_eq ?_
    intro l sub
    obtain ⟨chosen, among, rfl⟩ := List.sublist_map_iff.mp sub
    exact fits chosen among
  unfold sum
  rw [filterMap_integer? integers]
  cases values : rows.map value with
  | nil => rfl
  | cons n ns =>
    rw [values] at whole
    simp only [whole]
    rfl

/-- `COALESCE(AVG(expr),0)` can be read as a real. -/
theorem coalesce_avg [Float64 F] (values : List (SqlValue F)) :
    (∃ x, (avg values).coalesce (integer 0) = real x) ∨
      (avg values).coalesce (integer 0) = integer 0 := by
  unfold avg
  cases values.filterMap integer? with
  | nil => exact .inr rfl
  | cons n ns => exact .inl ⟨_, rfl⟩

end SqlValue

/-! ## What a table holds -/

namespace SqlTable

variable {F α : Type}

/-- The rows of the table are the entries of a log, in order, each encoded by `encode`. -/
structure Holds (t : SqlTable F) (columns : List (SqlColumn F))
    (encode : α → String → SqlValue F) (log : List α) : Prop where
  columns : t.columns = columns
  rows : List.Forall₂ (fun row e => row.values = encode e) t.rows log

variable {t : SqlTable F} {columns : List (SqlColumn F)} {encode : α → String → SqlValue F}
  {log : List α}

theorem holds_create (columns : List (SqlColumn F)) (encode : α → String → SqlValue F) :
    (create columns).Holds columns encode [] := ⟨rfl, .nil⟩

/-- An insert that meets the constraints appends an entry. -/
theorem Holds.insert (holds : t.Holds columns encode log) {names : List String}
    {params : List (SqlValue F)} {e : α} (encoded : encode e = written columns names params)
    (allowed : columns.any (fun column => column.notNull && (given names params column).isNull) =
      false) :
    ∃ t', t.insert names params = some t' ∧ t'.Holds columns encode (log ++ [e]) := by
  have same := holds.columns
  unfold SqlTable.insert
  rw [if_neg (by rw [same, allowed]; simp)]
  refine ⟨_, rfl, same, ?_⟩
  apply List.rel_append holds.rows
  refine .cons ?_ .nil
  simp only [encoded, same]

/-- A `WHERE` clause selects the rows of the entries that meet it. -/
theorem forall₂_filter {rows : List (SqlRow F)}
    (paired : List.Forall₂ (fun row e => row.values = encode e) rows log)
    {condition : SqlRow F → Bool} {meets : α → Bool}
    (reads : ∀ row e, row.values = encode e → condition row = meets e) :
    List.Forall₂ (fun row e => row.values = encode e) (rows.filter condition)
      (log.filter meets) := by
  refine List.rel_filter ?_ paired
  intro row e same
  show condition row = true ↔ meets e = true
  rw [reads row e same]

/-- A delete removes the entries whose rows it selects. -/
theorem Holds.delete (holds : t.Holds columns encode log) {condition : SqlRow F → Bool}
    {expired : α → Bool} (reads : ∀ row e, row.values = encode e → condition row = expired e) :
    (t.delete condition).Holds columns encode (log.filter fun e => !expired e) := by
  refine ⟨holds.columns, forall₂_filter holds.rows ?_⟩
  intro row e same
  rw [reads row e same]

end SqlTable

section Newest
variable {F α : Type} {encode : α → String → SqlValue F} {read : SqlRow F → Option α}

/-- Reading rows that encode the entries of a log gives the log. -/
theorem mapM_of_forall₂ {rows : List (SqlRow F)} {log : List α}
    (paired : List.Forall₂ (fun row e => row.values = encode e) rows log)
    (readBack : ∀ row e, e ∈ log → row.values = encode e → read row = some e) :
    rows.mapM read = some log := by
  induction paired with
  | nil => rfl
  | @cons row e rows log same paired ih =>
    have rest := ih fun row' e' member => readBack row' e' (List.mem_cons_of_mem e member)
    rw [List.mapM_cons, readBack row e List.mem_cons_self same, rest]
    rfl

/-- `ORDER BY id DESC LIMIT n` reads the newest entries, newest first. -/
theorem mapM_newest {rows : List (SqlRow F)} (increasing : rows.Pairwise fun a b => a.id < b.id)
    {log : List α} (paired : List.Forall₂ (fun row e => row.values = encode e) rows log)
    (readBack : ∀ row e, e ∈ log → row.values = encode e → read row = some e) {n : Int}
    (nonneg : 0 ≤ n) :
    (limited n (orderByDesc SqlRow.id rows)).mapM read = some (log.reverse.take n.toNat) := by
  unfold limited
  rw [if_neg (by omega), orderByDesc_eq_reverse increasing]
  apply mapM_of_forall₂ (List.forall₂_take n.toNat (List.rel_reverse paired))
  intro row e member
  exact readBack row e (List.mem_reverse.mp (List.mem_of_mem_take member))

end Newest
end XboxProxy.Misc
