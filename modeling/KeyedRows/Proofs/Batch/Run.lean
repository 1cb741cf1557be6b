import KeyedRows.Proofs.Batch.Flush

/-!
# Runs of a batch

* `Storage.replying` : storage with a reply to every query, which keeps what it was sent;
* `Step`, `Event`, `Run` : calls and flushes of a batch, and what came of them so far;
* `Run.given`, `Run.live` : the handles given out, and the calls taken since the last flush that
  succeeded;
* `Run.Kept` : the waiting requests are those calls, and the counts and the answers agree with them;
* `Kept.called_enqueue` : which calls wait after a request that waits anew;
* `Kept.again`, `Kept.fresh`, `Kept.poison`, `Kept.resolve` : each thing that a step can do keeps
  this;
* `Kept.step`, `kept_of` : so it holds after every run.
-/

namespace KeyedRows

/-- Storage with a reply to every query, whose state is what it was sent. -/
def Storage.replying (reply : Statement → Except StorageFailure (List Row)) :
    Storage (List Statement) where
  fetch s sent := (reply s, sent ++ [s])
  execute s sent := ((reply s).map List.length, sent ++ [s])

namespace Batch

/-- A call, or a flush with what storage replies. -/
inductive Step where
  | request (call : Call)
  | flush (reply : Statement → Except StorageFailure (List Row))

inductive Event where
  | taken (call : Call) (handle : Nat)
  | rejected (call : Call) (e : Error)
  | flushed
  | failed (e : Error)

/-- The kind of a request and the place of its answer. -/
abbrev Handle := RequestKind × Nat

/-- What a handle shows of its answer. -/
inductive Shown where
  | one (a : Answer Entity)
  | many (a : Answer (List Entity))

def Shown.resolution : Shown → Resolution
  | one a => a.resolution
  | many a => a.resolution

def shown? (b : Batch) : Handle → Option Shown
  | (.one, i) => b.ones.answers[i]?.map .one
  | (.many, i) => b.manies.answers[i]?.map .many

namespace Event

def handle? : Event → Option Handle
  | taken call i => some (call.kind, i)
  | _ => none

/-- The calls that were taken since the last flush that succeeded; the last event comes first. -/
def live : List Event → List (Call × Nat)
  | [] => []
  | taken call i :: events => (call, i) :: live events
  | flushed :: _ => []
  | rejected _ _ :: events | failed _ :: events => live events

end Event

/-- A batch, what it has sent, and what came of its steps, the last one first. -/
structure Run where
  batch : Batch
  sent : List Statement := []
  events : List Event := []

namespace Run

def step (r : Run) : Step → Run
  | .request call =>
    match r.batch.request call with
    | (.ok i, b) => { r with batch := b, events := .taken call i :: r.events }
    | (.error e, b) => { r with batch := b, events := .rejected call e :: r.events }
  | .flush reply =>
    match r.batch.flush (.replying reply) r.sent with
    | ((.ok (), b), sent) => ⟨b, sent, .flushed :: r.events⟩
    | ((.error e, b), sent) => ⟨b, sent, .failed e :: r.events⟩

def steps (r : Run) (all : List Step) : Run := all.foldl step r

def of (t : Table) (style : Style) (all : List Step) : Run :=
  steps { batch := .new t style } all

def given (r : Run) : List Handle := r.events.filterMap Event.handle?

def live (r : Run) : List (Call × Nat) := Event.live r.events

/-- The waiting requests are the calls taken since the last flush that succeeded, the answers are
those of the handles given out, and each count is what it counts. -/
structure Kept (t : Table) (style : Style) (r : Run) : Prop where
  table : r.batch.table = t
  style : r.batch.style = style
  ones : r.batch.ones.Accurate (.new r.batch.table)
  manies : r.batch.manies.Accurate []
  waits : ∀ call i, (call, i) ∈ r.live → r.batch.Waits call i
  called : ∀ kind, ∀ w ∈ r.batch.waiting kind, ∃ call, (call, w.handle) ∈ r.live ∧
    call.kind = kind ∧ r.batch.table.Takes call.tuple w.key
  given : ∀ kind i, (kind, i) ∈ r.given ↔ i < r.batch.handles kind
  requests : r.batch.stats.requests =
    r.batch.stats.deduplicated + r.batch.handles .one + r.batch.handles .many
  queries : r.batch.stats.queries = r.batch.stats.flushes + if r.batch.poisoned then 1 else 0
  sent : r.sent.length = r.batch.stats.queries

theorem kept_start (t : Table) (style : Style) :
    Kept t style { batch := .new t style } where
  table := rfl
  style := rfl
  ones := Desk.accurate_empty _
  manies := Desk.accurate_empty _
  waits _ _ h := by cases h
  called kind w hw := by cases kind <;> cases hw
  given kind i := by cases kind <;> simp [Run.given, handles, RequestKind.choose, Batch.new]
  requests := rfl
  queries := rfl
  sent := rfl

variable {t : Table} {style : Style} {r : Run}

theorem Kept.ready (h : Kept t style r) (hpoisoned : r.batch.poisoned = false) : r.batch.Ready where
  poisoned := hpoisoned
  ones := h.ones.toSound
  manies := h.manies.toSound
  taken key hkey := by
    obtain ⟨w, hw, rfl⟩ := List.mem_map.1 hkey
    rcases List.mem_append.1 hw with hw | hw
    · obtain ⟨call, _, _, htakes⟩ := h.called .one w hw
      exact ⟨call.tuple, htakes⟩
    · obtain ⟨call, _, _, htakes⟩ := h.called .many w hw
      exact ⟨call.tuple, htakes⟩

/-! ## Requests that come to wait -/

section
variable (b : Batch) (key : List Value) (kind other : RequestKind)

theorem handles_enqueue :
    (b.enqueue key kind).handles other = b.handles other + if other = kind then 1 else 0 := by
  cases kind <;> cases other <;>
    simp [Batch.enqueue, enqueueOne, enqueueMany, handles, RequestKind.choose, Desk.enqueue]

theorem sum_handles_enqueue : (b.enqueue key kind).handles .one + (b.enqueue key kind).handles .many =
    b.handles .one + b.handles .many + 1 := by
  rw [handles_enqueue, handles_enqueue]
  cases kind <;> simp <;> omega

theorem lt_handles_enqueue_iff (i : Nat) : i < (b.enqueue key kind).handles other ↔
    (other, i) = (kind, b.handles kind) ∨ i < b.handles other := by
  rw [handles_enqueue, Prod.mk.injEq]
  split
  · next h =>
    rw [h, eq_self, true_and]
    omega
  · next h => simp [h]

theorem mem_waiting_enqueue_iff (w : Request (List Value)) : w ∈ (b.enqueue key kind).waiting other ↔
    w ∈ b.waiting other ∨ other = kind ∧ w = ⟨key, b.handles kind⟩ := by
  cases kind <;> cases other <;>
    simp [Batch.enqueue, enqueueOne, enqueueMany, waiting, handles, RequestKind.choose, Desk.enqueue]

theorem stats_enqueue : (b.enqueue key kind).stats = b.stats := by cases kind <;> rfl

theorem poisoned_enqueue : (b.enqueue key kind).poisoned = b.poisoned := by cases kind <;> rfl

end

theorem waits_enqueue {b : Batch} {call : Call} {key : List Value}
    (htakes : b.table.Takes call.tuple key) :
    (b.enqueue key call.kind).Waits call (b.handles call.kind) := by
  rw [← (b.extends_enqueue key call.kind).table] at htakes
  exact waits_iff.2 ⟨key, htakes, b.mem_waiting_enqueue key call.kind⟩

theorem accurate_ones_enqueue {b : Batch} (h : b.ones.Accurate (.new b.table)) {kind : RequestKind}
    {key : List Value} (hkey : key ∉ (b.waiting kind).map Request.key) :
    (b.enqueue key kind).ones.Accurate (.new (b.enqueue key kind).table) := by
  cases kind with
  | one => exact Desk.Accurate.enqueue h hkey
  | many => exact h

theorem accurate_manies_enqueue {b : Batch} (h : b.manies.Accurate []) {kind : RequestKind}
    {key : List Value} (hkey : key ∉ (b.waiting kind).map Request.key) :
    (b.enqueue key kind).manies.Accurate [] := by
  cases kind with
  | one => exact h
  | many => exact Desk.Accurate.enqueue h hkey

/-! ## Calls -/

theorem Kept.handle_lt (h : Kept t style r) {kind : RequestKind} {w : Request (List Value)}
    (hw : w ∈ r.batch.waiting kind) : w.handle < r.batch.handles kind := by
  cases kind with
  | one => exact h.ones.handle_lt hw
  | many => exact h.manies.handle_lt hw

theorem Kept.again (h : Kept t style r) {call : Call} {key : List Value} {i : Nat}
    (htakes : r.batch.table.Takes call.tuple key) (hw : ⟨key, i⟩ ∈ r.batch.waiting call.kind) :
    Kept t style
      { r with batch := r.batch.countRequest true, events := .taken call i :: r.events } where
  table := h.table
  style := h.style
  ones := h.ones
  manies := h.manies
  waits call' j hlive := by
    rcases List.mem_cons.1 hlive with heq | hlive
    · cases heq
      exact waits_iff.2 ⟨key, htakes, hw⟩
    · exact waits_iff.2 (waits_iff.1 (h.waits call' j hlive))
  called kind w hw := by
    obtain ⟨call', hlive, hcall⟩ := h.called kind w hw
    exact ⟨call', List.mem_cons_of_mem _ hlive, hcall⟩
  given kind j := by
    show (kind, j) ∈ (call.kind, i) :: r.given ↔ j < r.batch.handles kind
    rw [List.mem_cons, h.given kind j, or_iff_right_iff_imp]
    rintro ⟨⟩
    exact h.handle_lt hw
  requests := by
    have hrequests := h.requests
    show r.batch.stats.requests + 1 =
      r.batch.stats.deduplicated + 1 + r.batch.handles .one + r.batch.handles .many
    omega
  queries := h.queries
  sent := h.sent

/-- A request that comes to wait is a call of its own, and those that waited before are still theirs. -/
theorem Kept.called_enqueue (h : Kept t style r) {call : Call} {key : List Value}
    (htakes : r.batch.table.Takes call.tuple key) {kind : RequestKind} {w : Request (List Value)}
    (hw : w ∈ (r.batch.enqueue key call.kind).waiting kind) :
    ∃ call', (call', w.handle) ∈ (call, r.batch.handles call.kind) :: r.live ∧ call'.kind = kind ∧
      (r.batch.enqueue key call.kind).table.Takes call'.tuple w.key := by
  rw [(r.batch.extends_enqueue key call.kind).table]
  rcases (mem_waiting_enqueue_iff ..).1 hw with hw | ⟨rfl, rfl⟩
  · obtain ⟨call', hlive, hcall⟩ := h.called kind w hw
    exact ⟨call', List.mem_cons_of_mem _ hlive, hcall⟩
  · exact ⟨call, List.mem_cons_self, rfl, htakes⟩

theorem Kept.fresh (h : Kept t style r) {call : Call} {key : List Value}
    (htakes : r.batch.table.Takes call.tuple key)
    (hkey : key ∉ (r.batch.waiting call.kind).map Request.key) :
    Kept t style
      { r with
        batch := (r.batch.enqueue key call.kind).countRequest false
        events := .taken call (r.batch.handles call.kind) :: r.events } where
  table := (r.batch.extends_enqueue key call.kind).table.trans h.table
  style := (r.batch.extends_enqueue key call.kind).style.trans h.style
  ones := accurate_ones_enqueue h.ones hkey
  manies := accurate_manies_enqueue h.manies hkey
  waits call' j hlive := by
    rcases List.mem_cons.1 hlive with heq | hlive
    · cases heq
      exact waits_iff.2 (waits_iff.1 (waits_enqueue htakes))
    · exact waits_iff.2 (waits_iff.1 ((h.waits call' j hlive).extends (r.batch.extends_enqueue _ _)))
  called _ _ hw := h.called_enqueue htakes hw
  given kind j := by
    show (kind, j) ∈ (call.kind, r.batch.handles call.kind) :: r.given ↔
      j < (r.batch.enqueue key call.kind).handles kind
    rw [List.mem_cons, h.given kind j, lt_handles_enqueue_iff]
  requests := by
    have hsum := sum_handles_enqueue r.batch key call.kind
    have hrequests := h.requests
    show (r.batch.enqueue key call.kind).stats.requests + 1 =
      (r.batch.enqueue key call.kind).stats.deduplicated +
        (r.batch.enqueue key call.kind).handles .one + (r.batch.enqueue key call.kind).handles .many
    rw [stats_enqueue]
    omega
  queries := by
    show (r.batch.enqueue key call.kind).stats.queries =
      (r.batch.enqueue key call.kind).stats.flushes +
        if (r.batch.enqueue key call.kind).poisoned then 1 else 0
    rw [stats_enqueue, poisoned_enqueue]
    exact h.queries
  sent := by
    show r.sent.length = (r.batch.enqueue key call.kind).stats.queries
    rw [stats_enqueue]
    exact h.sent

/-! ## Flushes -/

/-- A flush without requests lets the run begin anew, as far as requests go. -/
theorem Kept.idle (h : Kept t style r) (hpending : r.batch.pending = 0) :
    Kept t style { r with events := .flushed :: r.events } where
  table := h.table
  style := h.style
  ones := h.ones
  manies := h.manies
  waits _ _ hlive := by cases hlive
  called kind w hw := by
    have hw : w ∈ r.batch.waiting kind := hw
    rw [waiting_eq_nil hpending] at hw
    cases hw
  given := h.given
  requests := h.requests
  queries := h.queries
  sent := h.sent

theorem Kept.poison (h : Kept t style r) (hpoisoned : r.batch.poisoned = false) (s : Statement)
    (e : Error) : Kept t style ⟨r.batch.countQuery.poison, r.sent ++ [s], .failed e :: r.events⟩ where
  table := h.table
  style := h.style
  ones := h.ones
  manies := h.manies
  waits call i hlive := waits_iff.2 (waits_iff.1 (h.waits call i hlive))
  called := h.called
  given := h.given
  requests := h.requests
  queries := by
    have hqueries := h.queries
    rw [hpoisoned] at hqueries
    show r.batch.stats.queries + 1 = r.batch.stats.flushes + 1
    rw [hqueries]
    rfl
  sent := by
    rw [List.length_append, h.sent]
    rfl

theorem Kept.resolve (h : Kept t style r) (hpoisoned : r.batch.poisoned = false) (s : Statement)
    (es : List Entity) :
    Kept t style ⟨r.batch.countQuery.resolve es, r.sent ++ [s], .flushed :: r.events⟩ where
  table := (r.batch.countQuery.table_resolve es).trans h.table
  style := (r.batch.countQuery.style_resolve es).trans h.style
  ones := by
    show (r.batch.countQuery.resolve es).ones.Accurate (.new (r.batch.countQuery.resolve es).table)
    rw [table_resolve]
    exact (h.ready hpoisoned).countQuery.accurate_ones h.ones es
  manies := (h.ready hpoisoned).countQuery.accurate_manies h.manies es
  waits _ _ hlive := by cases hlive
  called kind w hw := by cases kind <;> cases hw
  given kind i := by
    show (kind, i) ∈ r.given ↔ i < (r.batch.countQuery.resolve es).handles kind
    rw [handles_resolve]
    exact h.given kind i
  requests := by
    show (r.batch.countQuery.resolve es).stats.requests =
      (r.batch.countQuery.resolve es).stats.deduplicated +
        (r.batch.countQuery.resolve es).handles .one + (r.batch.countQuery.resolve es).handles .many
    rw [handles_resolve, handles_resolve, stats_resolve]
    exact h.requests
  queries := by
    have hqueries := h.queries
    rw [hpoisoned] at hqueries
    show (r.batch.countQuery.resolve es).stats.queries =
      (r.batch.countQuery.resolve es).stats.flushes +
        if (r.batch.countQuery.resolve es).poisoned then 1 else 0
    rw [stats_resolve, poisoned_resolve]
    show r.batch.stats.queries + 1 = r.batch.stats.flushes + 1 + if r.batch.poisoned then 1 else 0
    rw [hpoisoned, hqueries]
    rfl
  sent := by
    show (r.sent ++ [s]).length = (r.batch.countQuery.resolve es).stats.queries
    rw [stats_resolve, List.length_append, h.sent]
    rfl

/-! ## Steps -/

/-- One step keeps the account, whatever the call is and whatever storage replies. -/
theorem Kept.step (h : Kept t style r) (s : Step) : Kept t style (r.step s) := by
  -- a step that leaves the batch alone only adds an event, which no account counts
  cases s with
  | request call =>
    rcases r.batch.request_cases call with
      ⟨e, _, heq⟩ | ⟨key, _, htakes, ⟨i, hw, heq⟩ | ⟨hkey, heq⟩⟩
    · rw [Run.step, heq]
      exact { h with }
    · rw [Run.step, heq]
      exact h.again htakes hw
    · rw [Run.step, heq]
      exact h.fresh htakes hkey
  | flush reply =>
    rcases flush_cases h.ready (.replying reply) r.sent with
      ⟨_, heq⟩ | ⟨_, hpending, heq⟩ | ⟨s, hpoisoned, _, _, ⟨e, heq⟩ | ⟨es, heq⟩⟩
    · rw [Run.step, heq]
      exact { h with }
    · rw [Run.step, heq]
      exact h.idle hpending
    · rw [Run.step, heq]
      exact h.poison hpoisoned s e
    · rw [Run.step, heq]
      exact h.resolve hpoisoned s es

theorem Kept.steps (h : Kept t style r) (all : List Step) : Kept t style (r.steps all) := by
  induction all generalizing r with
  | nil => exact h
  | cons s all ih => exact ih (h.step s)

/-- **Every run keeps the account.** -/
theorem kept_of (t : Table) (style : Style) (all : List Step) : Kept t style (of t style all) :=
  (kept_start t style).steps all

end Run
end Batch
end KeyedRows
