import KeyedRows.Batch.Index
import KeyedRows.Session

/-!
# Batches of key look-ups

* `Batch` : the look-ups of one table that the next flush resolves with a single query;
* `Batch.requestOne`, `Batch.requestMany` : ask for the first row, or for every row, whose key starts
  with some values;
* `Batch.flush` : runs the query and resolves every waiting request.

A request gives the handle of its answer. A flush that fails leaves all answers as they are and
poisons the batch, which then takes no more calls.
-/

namespace KeyedRows

/-- Counts since a batch was made. -/
structure BatchStats where
  /-- Requests taken, also those that got the handle of another. -/
  requests : Nat := 0
  deduplicated : Nat := 0
  /-- Flushes that resolved requests. -/
  flushes : Nat := 0
  queries : Nat := 0
deriving DecidableEq

def BatchStats.request (s : BatchStats) (again : Bool) : BatchStats :=
  { s with
    requests := s.requests + 1
    deduplicated := if again then s.deduplicated + 1 else s.deduplicated }

/-- Look-ups that wait under their key values, and the answers given out so far. -/
structure Batch where
  table : Table
  style : Style := {}
  /-- Requests for a first row. -/
  ones : Desk (List Value) Entity := {}
  /-- Requests for all rows. -/
  manies : Desk (List Value) (List Entity) := {}
  /-- Where the waiting request of a kind for some values stands. -/
  index : RequestIndex (List Value) := []
  indexed : index.Lists (RequestKind.choose ones.waiting manies.waiting) := by
    exact RequestIndex.lists_nil
  poisoned : Bool := false
  stats : BatchStats := {}
deriving DecidableEq

namespace Batch

def new (t : Table) (style : Style) : Batch := { table := t, style := style }

def waiting (b : Batch) : RequestKind → List (Request (List Value)) :=
  RequestKind.choose b.ones.waiting b.manies.waiting

def pending (b : Batch) : Nat := b.ones.waiting.length + b.manies.waiting.length

/-! ## Requests -/

/-- Some values fit the key of a table as its leading part. -/
def checkTuple (t : Table) (tuple : List Value) : Except TupleError Unit :=
  if t.key.isEmpty then .error .noKey
  else if tuple.isEmpty then .error .empty
  else if t.key.length < tuple.length then .error (.tooLong tuple.length t.key.length)
  else .ok ()

/-- Values as the leading key columns give them back. -/
def coerceTuple (t : Table) (tuple : List Value) : Except Error (List Value) :=
  (t.keyColumns.zip tuple).mapM fun (column, v) => do
    let c ← t.requireColumn column
    (c.type.coerce v).mapError .value

/-- The values that a request waits under, if the batch takes it. -/
def prepare (b : Batch) (tuple : List Value) : Except Error (List Value) :=
  if b.poisoned then .error .batchPoisoned
  else match checkTuple b.table tuple with
    | .error e => .error (.invalidTuple b.table.name e)
    | .ok () => coerceTuple b.table tuple

/-- The handle of the waiting request of a kind for some values. -/
def handle? (b : Batch) (kind : RequestKind) (key : List Value) : Option Nat :=
  (b.index.place? kind key).bind fun i => (b.waiting kind)[i]?.map Request.handle

def enqueueOne (b : Batch) (key : List Value) : Batch :=
  { b with
    ones := b.ones.enqueue key (.new b.table)
    index := ((.one, key), b.ones.waiting.length) :: b.index
    indexed := b.indexed.consOne ⟨key, b.ones.answers.length⟩ }

def enqueueMany (b : Batch) (key : List Value) : Batch :=
  { b with
    manies := b.manies.enqueue key []
    index := ((.many, key), b.manies.waiting.length) :: b.index
    indexed := b.indexed.consMany ⟨key, b.manies.answers.length⟩ }

def countRequest (b : Batch) (again : Bool) : Batch := { b with stats := b.stats.request again }

/-- Asks for the first row whose key starts with some values. Until it is resolved, the answer is an
entity with every column unset. -/
def requestOne (b : Batch) (tuple : List Value) : Except Error Nat × Batch :=
  match b.prepare tuple with
  | .error e => (.error e, b)
  | .ok key => match b.handle? .one key with
    | some handle => (.ok handle, b.countRequest true)
    | none => (.ok b.ones.answers.length, (b.enqueueOne key).countRequest false)

/-- Asks for every row whose key starts with some values, in key order. -/
def requestMany (b : Batch) (tuple : List Value) : Except Error Nat × Batch :=
  match b.prepare tuple with
  | .error e => (.error e, b)
  | .ok key => match b.handle? .many key with
    | some handle => (.ok handle, b.countRequest true)
    | none => (.ok b.manies.answers.length, (b.enqueueMany key).countRequest false)

/-! ## Answers -/

/-- The values of a loaded row in the key columns. -/
def keyOf (t : Table) (e : Entity) : List Value :=
  t.keyColumns.map fun column => (e.get? column).getD .null

/-- Hands a row to a request for one: the first row that fits is its answer. -/
def takeOne (keys : List Value) (e : Entity) (key : List Value) (a : Answer Entity) :
    Answer Entity :=
  if a.isPending && key.isPrefixOf keys then ⟨.found, e⟩ else a

/-- Hands a row to a request for many: each row that fits is added to its answer. -/
def takeMany (keys : List Value) (e : Entity) (key : List Value) (a : Answer (List Entity)) :
    Answer (List Entity) :=
  if key.isPrefixOf keys then ⟨.found, a.value ++ [e]⟩ else a

def deliver (b : Batch) (e : Entity) : Batch :=
  { b with
    ones := b.ones.mapWaiting (takeOne (keyOf b.table e) e)
    manies := b.manies.mapWaiting (takeMany (keyOf b.table e) e)
    indexed := b.indexed }

/-- A request that no row fitted is missing; the answer for one is then an entity of nulls. -/
def close (b : Batch) : Batch :=
  { b with
    ones := b.ones.mapWaiting fun _ a => if a.isPending then ⟨.missing, .nulls b.table⟩ else a
    manies := b.manies.mapWaiting fun _ a => if a.isPending then ⟨.missing, a.value⟩ else a
    indexed := b.indexed }

/-- Resolves every waiting request from the rows of a reply. -/
def resolve (b : Batch) (rows : List Entity) : Batch :=
  let b := (rows.foldl deliver b).close
  { b with
    ones := b.ones.dismiss
    manies := b.manies.dismiss
    index := []
    indexed := RequestIndex.lists_nil
    stats := { b.stats with flushes := b.stats.flushes + 1 } }

/-! ## Flushing -/

/-- The values of all waiting requests, each once. -/
def tuples (b : Batch) : List (List Value) :=
  ((b.ones.waiting ++ b.manies.waiting).map Request.key).eraseDups

def poison (b : Batch) : Batch := { b with poisoned := true }

def countQuery (b : Batch) : Batch :=
  { b with stats := { b.stats with queries := b.stats.queries + 1 } }

/-- Runs the query for all waiting requests and resolves them; does nothing if none waits. -/
def flush {σ : Type} (x : Storage σ) (b : Batch) (state : σ) : (Except Error Unit × Batch) × σ :=
  if b.poisoned then ((.error .batchPoisoned, b), state)
  else if b.pending = 0 then ((.ok (), b), state)
  else match (KeyRange.isIn b.tuples).predicate? b.table.key with
    | none => ((.ok (), b.resolve []), state)
    | some p => match b.table.selectWhere b.style (some p) none false with
      | .error e => ((.error e, b.poison), state)
      | .ok s =>
        let (result, state) := x.rows s state
        match result.bind fun rows => rows.mapM (Entity.ofRow b.table) with
        | .error e => ((.error e, b.countQuery.poison), state)
        | .ok rows => ((.ok (), b.countQuery.resolve rows), state)

end Batch

/-- A batch that writes its query in the style of a session. -/
def Session.batch (u : Session) (t : Table) : Batch := .new t u.style

end KeyedRows
