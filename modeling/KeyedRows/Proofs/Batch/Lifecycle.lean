import KeyedRows.Proofs.Batch.Run

/-!
# What becomes of requests

* `Keeps`, `Run.Kept.keeps_step` : no step changes an answer that is not pending;
* `Run.poisoned_steps` : nothing happens to a poisoned batch any more;
* `Run.Kept.flush_ok_iff` : when a flush succeeds;
* `Run.resolves_once` : a handle is resolved by the first flush that succeeds, or never;
* `Run.flush_sends_one` : a flush with requests sends one select, which asks for each tuple once;
* `HoldsKey` : the fields of the key columns are set to some values, one by one;
* `AnswersFirst`, `AnswersAll` : what the rows of a reply are to make of a request of each kind;
* `Run.flush_distributes` : a flush makes this of every request, whatever rows the reply has.
-/

namespace KeyedRows.Batch

/-! ## Answers that are final -/

/-- Every answer that is not pending is still the same. -/
structure Keeps (b b' : Batch) : Prop where
  ones : b.ones.Keeps b'.ones
  manies : b.manies.Keeps b'.manies

theorem Keeps.refl (b : Batch) : b.Keeps b := ⟨.refl _, .refl _⟩

theorem Keeps.shown? {b b' : Batch} (h : b.Keeps b') {handle : Handle} {a : Shown}
    (ha : b.shown? handle = some a) (hresolved : a.resolution ≠ .pending) :
    b'.shown? handle = some a := by
  obtain ⟨kind, i⟩ := handle
  cases kind with
  | one =>
    obtain ⟨answer, hanswer, rfl⟩ := Option.map_eq_some_iff.1 ha
    rw [Batch.shown?, h.ones i answer hanswer (decide_eq_false hresolved)]
    rfl
  | many =>
    obtain ⟨answer, hanswer, rfl⟩ := Option.map_eq_some_iff.1 ha
    rw [Batch.shown?, h.manies i answer hanswer (decide_eq_false hresolved)]
    rfl

theorem keeps_enqueue (b : Batch) (key : List Value) (kind : RequestKind) :
    b.Keeps (b.enqueue key kind) := by
  cases kind with
  | one => exact ⟨Desk.keeps_enqueue _ _ _, .refl _⟩
  | many => exact ⟨.refl _, Desk.keeps_enqueue _ _ _⟩

theorem Ready.keeps_resolve {b : Batch} (h : b.Ready) (rows : List Entity) :
    b.Keeps (b.resolve rows) where
  ones := by
    rw [ones_resolve]
    exact h.ones.keeps_settle _
  manies := by
    rw [manies_resolve]
    exact h.manies.keeps_settle _

theorem request_of_poisoned {b : Batch} (h : b.poisoned = true) (call : Call) :
    b.request call = (.error .batchPoisoned, b) := by
  have hprepare : b.prepare call.tuple = .error .batchPoisoned := by rw [prepare, if_pos h]
  rcases b.request_cases call with ⟨e, he, heq⟩ | ⟨_, hpoisoned, _⟩
  · rw [hprepare] at he
    cases he
    exact heq
  · rw [h] at hpoisoned
    cases hpoisoned

theorem flush_of_poisoned {b : Batch} (h : b.poisoned = true) {σ : Type} (x : Storage σ) (state : σ) :
    b.flush x state = ((.error .batchPoisoned, b), state) := by
  rw [flush, if_pos h]

namespace Run

variable {t : Table} {style : Style} {r : Run}

theorem Kept.keeps_step (h : Kept t style r) (s : Step) : r.batch.Keeps (r.step s).batch := by
  cases s with
  | request call =>
    rcases r.batch.request_cases call with
      ⟨e, _, heq⟩ | ⟨key, _, _, ⟨i, _, heq⟩ | ⟨_, heq⟩⟩
    · rw [Run.step, heq]
      exact .refl _
    · rw [Run.step, heq]
      exact ⟨.refl _, .refl _⟩
    · rw [Run.step, heq]
      have hkeeps := r.batch.keeps_enqueue key call.kind
      exact ⟨hkeeps.ones, hkeeps.manies⟩
  | flush reply =>
    rcases flush_cases h.ready (.replying reply) r.sent with
      ⟨_, heq⟩ | ⟨_, _, heq⟩ | ⟨s, hpoisoned, _, _, ⟨e, heq⟩ | ⟨es, heq⟩⟩
    · rw [Run.step, heq]
      exact .refl _
    · rw [Run.step, heq]
      exact .refl _
    · rw [Run.step, heq]
      exact ⟨.refl _, .refl _⟩
    · rw [Run.step, heq]
      have hkeeps := (h.ready hpoisoned).countQuery.keeps_resolve es
      exact ⟨hkeeps.ones, hkeeps.manies⟩

/-- An answer that is not pending stays what it is for the rest of the run. -/
theorem Kept.shown?_steps (h : Kept t style r) {handle : Handle} {a : Shown}
    (ha : r.batch.shown? handle = some a) (hresolved : a.resolution ≠ .pending)
    (more : List Step) : (r.steps more).batch.shown? handle = some a := by
  induction more generalizing r with
  | nil => exact ha
  | cons s more ih => exact ih (h.step s) ((h.keeps_step s).shown? ha hresolved)

/-! ## After a flush that failed -/

theorem poisoned_steps (hpoisoned : r.batch.poisoned = true) (more : List Step) :
    (r.steps more).batch = r.batch ∧ (r.steps more).sent = r.sent := by
  induction more generalizing r with
  | nil => exact ⟨rfl, rfl⟩
  | cons s more ih =>
    have hstep : (r.step s).batch = r.batch ∧ (r.step s).sent = r.sent := by
      cases s with
      | request call =>
        rw [step, request_of_poisoned hpoisoned]
        exact ⟨rfl, rfl⟩
      | flush reply =>
        rw [step, flush_of_poisoned hpoisoned]
        exact ⟨rfl, rfl⟩
    have hmore := ih (r := r.step s) (by rw [hstep.1, hpoisoned])
    exact ⟨hmore.1.trans hstep.1, hmore.2.trans hstep.2⟩

theorem Kept.failed (h : Kept t style r) {σ : Type} {x : Storage σ} {state state' : σ} {e : Error}
    {b : Batch} (hflush : r.batch.flush x state = ((.error e, b), state')) :
    b.poisoned = true ∧ ∀ handle, b.shown? handle = r.batch.shown? handle := by
  rcases flush_cases h.ready x state with
    ⟨hpoisoned, heq⟩ | ⟨_, _, heq⟩ | ⟨s, _, _, _, ⟨e', heq⟩ | ⟨es, heq⟩⟩
  · rw [heq] at hflush
    cases hflush
    exact ⟨hpoisoned, fun _ => rfl⟩
  · rw [heq] at hflush
    cases hflush
  · rw [heq] at hflush
    cases hflush
    -- rows are decoded before any answer is written, so only the flag and a count have changed
    exact ⟨rfl, fun ⟨kind, _⟩ => by cases kind <;> rfl⟩
  · rw [heq] at hflush
    cases hflush

/-! ## After a flush that succeeded -/

theorem Kept.resolved (h : Kept t style r) (hpending : r.batch.pending = 0) {handle : Handle}
    (hgiven : handle ∈ r.given) :
    ∃ a, r.batch.shown? handle = some a ∧ a.resolution ≠ .pending := by
  obtain ⟨kind, i⟩ := handle
  have hi := (h.given kind i).1 hgiven
  cases kind with
  | one =>
    obtain ⟨a, ha, hresolved⟩ := h.ones.exists_resolved (waiting_eq_nil hpending .one) hi
    exact ⟨.one a, by rw [shown?, ha]; rfl, of_decide_eq_false hresolved⟩
  | many =>
    obtain ⟨a, ha, hresolved⟩ := h.manies.exists_resolved (waiting_eq_nil hpending .many) hi
    exact ⟨.many a, by rw [shown?, ha]; rfl, of_decide_eq_false hresolved⟩

theorem Kept.flushed (h : Kept t style r) {σ : Type} {x : Storage σ} {state state' : σ} {b : Batch}
    (hflush : r.batch.flush x state = ((.ok (), b), state')) {handle : Handle}
    (hgiven : handle ∈ r.given) : ∃ a, b.shown? handle = some a ∧ a.resolution ≠ .pending := by
  rcases flush_cases h.ready x state with
    ⟨_, heq⟩ | ⟨_, hpending, heq⟩ | ⟨s, hpoisoned, _, _, ⟨e, heq⟩ | ⟨es, heq⟩⟩
  · rw [heq] at hflush
    cases hflush
  · rw [heq] at hflush
    cases hflush
    exact h.resolved hpending hgiven
  · rw [heq] at hflush
    cases hflush
  · rw [heq] at hflush
    cases hflush
    exact (h.resolve hpoisoned s es).resolved rfl hgiven

/-- A flush succeeds exactly if none has failed, and no request waits or every row of the reply
loads. -/
theorem Kept.flush_ok_iff (h : Kept t style r) {σ : Type} (x : Storage σ) (state : σ) :
    (r.batch.flush x state).1.1 = .ok () ↔ r.batch.poisoned = false ∧ (r.batch.pending = 0 ∨
      ∃ s rows es, t.selectWhere style (some (KeyRange.oneOf t.key r.batch.tuples)) none false = .ok s ∧
        (x.fetch s state).1 = .ok rows ∧ rows.mapM (Entity.ofRow t) = .ok es) := by
  cases hpoisoned : r.batch.poisoned with
  | true => simp [flush_of_poisoned hpoisoned]
  | false =>
    by_cases hpending : r.batch.pending = 0
    · simp [flush, hpoisoned, hpending]
    · obtain ⟨s, _, hs⟩ := (h.ready hpoisoned).exists_select hpending
      have hreply : ∀ rows, (x.rows s state).1 = .ok rows ↔ (x.fetch s state).1 = .ok rows :=
        fun _ => mapError_eq_ok
      rw [(h.ready hpoisoned).flush_of_selectWhere hpending hs, received_ok_iff, h.table]
      rw [h.table, h.style] at hs
      simp only [hreply]
      constructor
      · rintro ⟨rows, es, hrows, hes⟩
        exact ⟨trivial, .inr ⟨s, rows, es, hs, hrows, hes⟩⟩
      · rintro ⟨_, hnone | ⟨s', rows, es, hs', hrows, hes⟩⟩
        · exact absurd hnone hpending
        · rw [hs, Except.ok.injEq] at hs'
          subst hs'
          exact ⟨rows, es, hrows, hes⟩

/-- **Handles are resolved once or not at all.** Whatever storage replied so far:

* a flush succeeds exactly if none has failed, and no request waits or every row of the reply loads;
* a flush that fails poisons the batch, and every handle shows what it showed;
* a poisoned batch stays as it is, sends nothing and fails every call and every flush;
* a flush that succeeds leaves no handle pending that was given out;
* a handle that is not pending shows the same for the rest of the run. -/
theorem resolves_once (t : Table) (style : Style) (all : List Step) :
    let r := Run.of t style all
    (∀ {σ : Type} (x : Storage σ) (state : σ), (r.batch.flush x state).1.1 = .ok () ↔
      r.batch.poisoned = false ∧ (r.batch.pending = 0 ∨ ∃ s rows es,
        t.selectWhere style (some (KeyRange.oneOf t.key r.batch.tuples)) none false = .ok s ∧
        (x.fetch s state).1 = .ok rows ∧ rows.mapM (Entity.ofRow t) = .ok es)) ∧
    (∀ {σ : Type} (x : Storage σ) (state state' : σ) (e : Error) (b : Batch),
      r.batch.flush x state = ((.error e, b), state') →
        b.poisoned = true ∧ ∀ handle, b.shown? handle = r.batch.shown? handle) ∧
    (r.batch.poisoned = true → ∀ more, let r' := r.steps more
      r'.batch = r.batch ∧ r'.sent = r.sent ∧
        (∀ call, r'.batch.request call = (.error .batchPoisoned, r'.batch)) ∧
        ∀ {σ : Type} (x : Storage σ) (state : σ),
          r'.batch.flush x state = ((.error .batchPoisoned, r'.batch), state)) ∧
    (∀ {σ : Type} (x : Storage σ) (state state' : σ) (b : Batch),
      r.batch.flush x state = ((.ok (), b), state') →
        ∀ handle ∈ r.given, ∃ a, b.shown? handle = some a ∧ a.resolution ≠ .pending) ∧
    ∀ handle a, r.batch.shown? handle = some a → a.resolution ≠ .pending →
      ∀ more, (r.steps more).batch.shown? handle = some a := by
  intro r
  have hkept : Kept t style r := kept_of t style all
  refine ⟨hkept.flush_ok_iff, fun _ _ _ _ _ hflush => hkept.failed hflush, fun hpoisoned more => ?_,
    fun _ _ _ _ hflush _ hgiven => hkept.flushed hflush hgiven,
    fun _ _ ha hresolved more => hkept.shown?_steps ha hresolved more⟩
  obtain ⟨hbatch, hsent⟩ := poisoned_steps hpoisoned more
  have hpoisoned' : (r.steps more).batch.poisoned = true := by rw [hbatch, hpoisoned]
  exact ⟨hbatch, hsent, request_of_poisoned hpoisoned', flush_of_poisoned hpoisoned'⟩

/-! ## What flushes send -/

/-- **A flush with requests sends one select.** It reaches storage whatever the table is, and its
condition lists each tuple that waits once, whichever kinds of requests wait for it. Where names are quoted,
its text reads as a select of the rows that this condition picks. So as many queries are sent as flushes
succeed, and one more if the last one failed. -/
theorem flush_sends_one (t : Table) (style : Style) (all : List Step) :
    let r := Run.of t style all
    let b := r.batch
    (b.poisoned = false → b.pending ≠ 0 → ∃ p s,
      (KeyRange.isIn b.tuples).predicate? t.key = some p ∧ b.AsksOnce p ∧
      t.selectWhere style (some p) none false = .ok s ∧ s.kind = .select ∧
      (style.quoteNames = true → t.Selects style (some p) none false s) ∧
      ∀ {σ : Type} (x : Storage σ) (state : σ), (b.flush x state).2 = (x.fetch s state).2) ∧
    (b.poisoned = false → b.stats.queries = b.stats.flushes) ∧
    b.stats.queries ≤ b.stats.flushes + 1 ∧ r.sent.length = b.stats.queries := by
  intro r b
  have hkept : Kept t style r := kept_of t style all
  refine ⟨fun hpoisoned hpending => ?_, fun hpoisoned => ?_, ?_, hkept.sent⟩
  · have hready : b.Ready := hkept.ready hpoisoned
    obtain ⟨s, _, hs⟩ := hready.exists_select hpending
    have hflush : ∀ {σ : Type} (x : Storage σ) (state : σ),
        (b.flush x state).2 = (x.fetch s state).2 := by
      intro σ x state
      rw [hready.flush_of_selectWhere hpending hs]
      rfl
    have hpredicate := hready.predicate?_tuples hpending
    have hlists : ∀ q ∈ some (KeyRange.oneOf b.table.key b.tuples), q.FilledLists := by
      rintro q ⟨⟩
      exact KeyRange.filledLists_of_predicate? hpredicate
    rw [← hkept.table, ← hkept.style]
    exact ⟨_, s, hpredicate, hready.asksOnce, hs, kind_of_selectWhere hs,
      fun hquote => Table.reads_selectWhere hquote (hready.columns_ne_nil hpending) hlists hs, hflush⟩
  · have hqueries := hkept.queries
    rw [hpoisoned] at hqueries
    exact hqueries
  · have hqueries := hkept.queries
    show r.batch.stats.queries ≤ r.batch.stats.flushes + 1
    split at hqueries <;> omega

/-- Three requests for two orders, one of them as a text. -/
theorem flush_sends_one_orders :
    let t : Table :=
      { name := "orders", columns := [⟨"no", .integer, none, none⟩], key := [⟨"no", .ascending⟩] }
    let b := (Run.of t {} [.request (.one [.integer 7]), .request (.many [.integer 7]),
      .request (.one [.string "8"])]).batch
    let s : Statement :=
      { kind := .select
        sql := "SELECT \"no\" FROM \"orders\" WHERE \"no\" IN (?, ?) ORDER BY \"no\" ASC"
        bindings := [.integer 7, .integer 8] }
    b.poisoned = false ∧ b.pending = 3 ∧ b.tuples = [[.integer 7], [.integer 8]] ∧
      ∃ p, (KeyRange.isIn b.tuples).predicate? t.key = some p ∧ b.AsksOnce p ∧
        t.Selects {} (some p) none false s ∧
        ∀ {σ : Type} (x : Storage σ) (state : σ), (b.flush x state).2 = (x.fetch s state).2 := by
  intro t b s
  have hpoisoned : b.poisoned = false := by decide
  have hpending : b.pending = 3 := by decide
  have htuples : b.tuples = [[.integer 7], [.integer 8]] := by decide
  obtain ⟨hsends, _⟩ := flush_sends_one t {} [.request (.one [.integer 7]),
    .request (.many [.integer 7]), .request (.one [.string "8"])]
  obtain ⟨p, s', hp, honce, hs, _, hselects, hflush⟩ := hsends hpoisoned (by rw [hpending]; decide)
  have hvalues : (KeyRange.isIn b.tuples).predicate? t.key =
      some (.isIn "no" [.integer 7, .integer 8]) := by rw [htuples]; rfl
  have hwhere : t.selectWhere {} (some (.isIn "no" [.integer 7, .integer 8])) none false = .ok s := by
    decide
  have hsame : s' = s := by
    rw [← Option.some.inj (hvalues.symm.trans hp)] at hs
    exact Except.ok.inj (hs.symm.trans hwhere)
  rw [hsame] at hselects hflush
  exact ⟨hpoisoned, hpending, htuples, p, hp, honce, hselects rfl, hflush⟩

/-- A row of the wrong width fails the flush after its query, and the request still waits. -/
example :
    let t : Table :=
      { name := "orders", columns := [⟨"no", .integer, none, none⟩], key := [⟨"no", .ascending⟩] }
    let r := Run.of t {} [.request (.one [.integer 7]), .flush fun _ => .ok [[.integer 7, .null]],
      .request (.many [.integer 7])]
    r.batch.poisoned = true ∧ r.batch.pending = 1 ∧ r.batch.stats = ⟨1, 0, 0, 1⟩ := by decide

end Run

/-! ## What a reply answers -/

/-- The key of an entity starts with some values: the field of each key column in turn is set to the
next of them. -/
def HoldsKey (t : Table) (key : List Value) (e : Entity) : Prop :=
  ∀ i (hi : i < key.length), t.keyColumns[i]?.bind e.field? = some (.set key[i])

instance (t : Table) (key : List Value) (e : Entity) : Decidable (HoldsKey t key e) :=
  inferInstanceAs (Decidable (∀ i (_ : i < key.length), _))

/-- The answer is the first of some rows whose key starts with the values, or, where no row does, an
entity with null in every column. -/
def AnswersFirst (t : Table) (key : List Value) (rows : List Entity) (a : Answer Entity) : Prop :=
  AnswersOne t (rows.find? fun e => HoldsKey t key e) a

/-- The answer is all of some rows whose key starts with the values, in their order and as often as
they come, and is found exactly if there is such a row. -/
def AnswersAll (t : Table) (key : List Value) (rows : List Entity) (a : Answer (List Entity)) : Prop :=
  (a.value = rows.filter fun e => HoldsKey t key e) ∧ (a.resolution = .found ↔ a.value ≠ []) ∧
    (a.resolution = .missing ↔ a.value = [])

section
variable {t : Table} {columns : List String} {tuple key : List Value} {row : Row} {e : Entity}

theorem isPrefixOf_iff_field? (he : Entity.ofRow t row = .ok e) (h : t.Coerces columns tuple key) :
    key.isPrefixOf (columns.map fun column => (e.get? column).getD .null) = true ↔
      ∀ i (hi : i < key.length), columns[i]?.bind e.field? = some (.set key[i]) := by
  induction h with
  | nil columns => cases columns <;> simp
  | @cons column columns _ w _ key c hc _ _ ih =>
    obtain ⟨v, hfield, hload⟩ := Entity.field?_of_ofRow he hc
    have hget := Entity.load?_cell he hc
    rw [hload, Option.some.injEq] at hget
    rw [List.map_cons, List.isPrefixOf_cons_cons, Bool.and_eq_true, beq_iff_eq, ih, ← hget]
    constructor
    · rintro ⟨rfl, hrest⟩ i hi
      cases i with
      | zero => exact hfield
      | succ i => exact hrest i (Nat.lt_of_succ_lt_succ hi)
    · intro hall
      refine ⟨?_, fun i hi => hall (i + 1) (Nat.succ_lt_succ hi)⟩
      have hfirst : e.field? column = some (.set w) := hall 0 (Nat.succ_pos _)
      rw [hfield] at hfirst
      cases hfirst
      rfl

theorem startsWith_eq_holdsKey (htakes : t.Takes tuple key) (he : Entity.ofRow t row = .ok e) :
    startsWith t key e = decide (HoldsKey t key e) := by
  rw [Bool.eq_iff_iff, decide_eq_true_eq]
  exact isPrefixOf_iff_field? he htakes.2

theorem filter_startsWith (htakes : t.Takes tuple key) {rows : List Row} {es : List Entity}
    (hes : rows.mapM (Entity.ofRow t) = .ok es) :
    es.filter (startsWith t key) = es.filter fun e => HoldsKey t key e := by
  refine List.filter_congr fun e he => ?_
  obtain ⟨row, _, hrow⟩ := exists_of_forall₂ (mapM_eq_ok.1 hes) he
  exact startsWith_eq_holdsKey htakes hrow

end

theorem Ready.flush_of_reply {b : Batch} (h : b.Ready) (hpending : b.pending ≠ 0) {σ : Type}
    {x : Storage σ} {state : σ} {rows : List Row} {es : List Entity}
    (hx : ∀ s, (x.fetch s state).1 = .ok rows) (hes : rows.mapM (Entity.ofRow b.table) = .ok es) :
    (b.flush x state).1 = (.ok (), b.countQuery.resolve es) := by
  obtain ⟨s, _, hs⟩ := h.exists_select hpending
  have hrows : (x.rows s state).1 = .ok rows := mapError_eq_ok.2 (hx s)
  rw [h.flush_of_selectWhere hpending hs, received, hrows]
  simp only [Except.bind, hes]

section
variable {b : Batch} {w : Request (List Value)} {rows : List Row} {es : List Entity}

/-- Of the rows of a reply, a request for one row is answered by the first that holds its values. -/
theorem Ready.answersFirst (h : b.Ready) (hw : w ∈ b.ones.waiting)
    (hes : rows.mapM (Entity.ofRow b.table) = .ok es) :
    ∃ a, (b.resolve es).ones.answers[w.handle]? = some a ∧ AnswersFirst b.table w.key es a := by
  obtain ⟨tuple, htakes⟩ := h.taken w.key (List.mem_map_of_mem (List.mem_append_left _ hw))
  refine ⟨_, resolve_ones h hw es, ?_⟩
  rw [AnswersFirst, ← List.head?_filter, ← filter_startsWith htakes hes]
  exact answersOne_oneAnswer _ _

/-- And a request for all rows by those that do. -/
theorem Ready.answersAll (h : b.Ready) (hw : w ∈ b.manies.waiting)
    (hes : rows.mapM (Entity.ofRow b.table) = .ok es) :
    ∃ a, (b.resolve es).manies.answers[w.handle]? = some a ∧ AnswersAll b.table w.key es a := by
  obtain ⟨tuple, htakes⟩ := h.taken w.key (List.mem_map_of_mem (List.mem_append_right _ hw))
  refine ⟨_, resolve_manies h hw es, ?_⟩
  rw [AnswersAll, ← filter_startsWith htakes hes]
  refine ⟨rfl, ?_⟩
  unfold manyAnswer
  cases es.filter (startsWith b.table w.key) <;> simp

end

/-- **A flush hands out any reply.** Whatever requests wait after a run, and whatever rows storage
replies, in any order, with repeats or unasked for, if they load the flush succeeds. Then each request
for one row has the first row of the reply whose key starts with its values, or nulls if there is
none, and each request for many rows has all of these in the order of the reply. -/
theorem Run.flush_distributes (t : Table) (style : Style) (all : List Step) {σ : Type} {x : Storage σ}
    (state : σ) {rows : List Row} {es : List Entity} :
    let b := (Run.of t style all).batch
    b.poisoned = false → (∀ s, (x.fetch s state).1 = .ok rows) →
      rows.mapM (Entity.ofRow t) = .ok es →
      ∃ after, (b.flush x state).1 = (.ok (), after) ∧
        (∀ w ∈ b.ones.waiting, ∃ a, after.ones.answers[w.handle]? = some a ∧
          AnswersFirst t w.key es a) ∧
        ∀ w ∈ b.manies.waiting, ∃ a, after.manies.answers[w.handle]? = some a ∧
          AnswersAll t w.key es a := by
  intro b hpoisoned hx hes
  have hkept : Kept t style (Run.of t style all) := kept_of t style all
  have hready : b.Ready := hkept.ready hpoisoned
  have htable : b.table = t := hkept.table
  by_cases hpending : b.pending = 0
  · refine ⟨b, by rw [flush, if_neg (by simp [hpoisoned]), if_pos hpending], ?_, ?_⟩
    · rw [show b.ones.waiting = [] from waiting_eq_nil hpending .one]
      exact List.forall_mem_nil _
    · rw [show b.manies.waiting = [] from waiting_eq_nil hpending .many]
      exact List.forall_mem_nil _
  · rw [← htable] at hes ⊢
    exact ⟨_, hready.flush_of_reply hpending hx hes, fun w hw => hready.countQuery.answersFirst hw hes,
      fun w hw => hready.countQuery.answersAll hw hes⟩

private def lines : Table where
  name := "lines"
  columns := [⟨"order", .integer, none, none⟩, ⟨"line", .integer, none, none⟩]
  key := [⟨"order", .ascending⟩, ⟨"line", .ascending⟩]

private def line (order no : Int64) : Entity where
  table := lines
  fields := [.set (.integer order), .set (.integer no)]
  baseline := some [.set (.integer order), .set (.integer no)]
  fields_length := rfl
  baseline_length := by rintro _ ⟨⟩; rfl

/-- A reply with a row that nobody asked for and one that comes twice, for requests of both kinds
under values of two lengths, of which no row holds the longer ones. -/
theorem Run.flush_distributes_lines :
    let b := (Run.of lines {} [.request (.one [.string "7"]), .request (.many [.integer 7]),
      .request (.one [.integer 8, .null])]).batch
    let rows : List Row := [[.integer 9, .integer 1], [.integer 7, .integer 2],
      [.integer 7, .text "1"], [.integer 7, .integer 2]]
    b.poisoned = false ∧ rows.mapM (Entity.ofRow lines) = .ok [line 9 1, line 7 2, line 7 1, line 7 2] ∧
      ∃ after, (b.flush (.replying fun _ => .ok rows) []).1 = (.ok (), after) ∧
        after.ones.answers[0]? = some ⟨.found, line 7 2⟩ ∧
        (∃ a, after.ones.answers[1]? = some a ∧ a.resolution = .missing ∧
          a.value.fields = [.set .null, .set .null]) ∧
        after.manies.answers[0]? = some ⟨.found, [line 7 2, line 7 1, line 7 2]⟩ := by
  intro b rows
  have hpoisoned : b.poisoned = false := by decide
  have hes : rows.mapM (Entity.ofRow lines) = .ok [line 9 1, line 7 2, line 7 1, line 7 2] := rfl
  obtain ⟨after, hflush, hones, hmanies⟩ := Run.flush_distributes lines {} _ (x := .replying _) []
    hpoisoned (fun _ => rfl : ∀ s, _ = Except.ok rows) hes
  obtain ⟨first, hfirst, hfound⟩ := hones ⟨[.integer 7], 0⟩ (by decide)
  obtain ⟨second, hsecond, hnone⟩ := hones ⟨[.integer 8, .null], 1⟩ (by decide)
  obtain ⟨all, hall, hvalue, hresolution, _⟩ := hmanies ⟨[.integer 7], 0⟩ (by decide)
  have hrow : [line 9 1, line 7 2, line 7 1, line 7 2].find?
      (fun e => HoldsKey lines [.integer 7] e) = some (line 7 2) := by decide
  have hnobody : [line 9 1, line 7 2, line 7 1, line 7 2].find?
      (fun e => HoldsKey lines [.integer 8, .null] e) = none := by decide
  have hrows : [line 9 1, line 7 2, line 7 1, line 7 2].filter
      (fun e => HoldsKey lines [.integer 7] e) = [line 7 2, line 7 1, line 7 2] := by decide
  rw [AnswersFirst, hrow] at hfound
  rw [AnswersFirst, hnobody] at hnone
  rw [hrows] at hvalue
  refine ⟨hpoisoned, hes, after, hflush, ?_, ⟨second, hsecond, hnone.of_none⟩, ?_⟩
  · rw [hfirst, hfound.of_some]
  · obtain ⟨resolution, value⟩ := all
    obtain rfl : value = _ := hvalue
    obtain rfl : resolution = .found := hresolution.2 (by simp)
    exact hall

end KeyedRows.Batch
