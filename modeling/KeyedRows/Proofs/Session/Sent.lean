import KeyedRows.Proofs.Session.Outcome
import KeyedRows.Proofs.Sql.Failure

/-!
# What a session sends

* `StorageFree` : a computation that does not fail in storage, as no builder of statements and no
  reader of rows does;
* `FailsWith.storageFree` : for a builder that follows from the errors that are due for it;
* `Storage.logged` : storage with a log of the statements that it gets;
* `Session.Sends` : a call that sends what the builder made for it, at most one statement, and names
  that statement if storage fails;
* `calls_send_one` : so does every call of a session, and a write that fails leaves its entity alone.
-/

namespace KeyedRows

/-! ## Computations that do not fail in storage -/

/-- The computation does not fail in storage. -/
def StorageFree {α : Type} (r : Except Error α) : Prop := ∀ sql f, r ≠ .error (.storage sql f)

section
variable {α β : Type}

theorem storageFree_ok (a : α) : StorageFree (.ok a : Except Error α) := fun _ _ h => by cases h

theorem StorageFree.of_error {e : Error} (h : StorageFree (.error e : Except Error α)) :
    StorageFree (.error e : Except Error β) := by
  intro sql f he
  cases he
  exact h sql f rfl

theorem StorageFree.bind {r : Except Error α} {g : α → Except Error β} (hr : StorageFree r)
    (hg : ∀ a, StorageFree (g a)) : StorageFree (r >>= g) := by
  cases r with
  | ok a => exact hg a
  | error e => exact hr.of_error

/-- A step does not fail in storage if no error that is due for it says so. -/
theorem FailsWith.storageFree {r : Except Error α} {errors : Error → Prop} (hr : FailsWith r errors)
    (h : ∀ sql f, ¬errors (.storage sql f)) : StorageFree r :=
  fun sql f he => h sql f (hr.due _ he)

theorem StorageFree.mapM {g : α → Except Error β} (hg : ∀ a, StorageFree (g a)) (as : List α) :
    StorageFree (as.mapM g) :=
  (FailsWith.mapM fun a _ => FailsWith.self (g a)).storageFree fun sql f ⟨a, _, h⟩ => hg a sql f h

end

theorem Entity.storageFree_ofRow (t : Table) (row : Row) : StorageFree (ofRow t row) := by
  unfold ofRow
  split
  · split <;> exact fun _ _ h => by cases h
  · exact fun _ _ h => by cases h

namespace Table

variable (t : Table) (style : Style)

theorem storageFree_requireColumn (column : String) : StorageFree (t.requireColumn column) := by
  unfold requireColumn
  split <;> exact fun _ _ h => by cases h

theorem storageFree_bind (column : String) (v : Value) : StorageFree (t.bind column v) := by
  refine (t.storageFree_requireColumn column).bind fun c => ?_
  split <;> exact fun _ _ h => by cases h

variable {t} {sql : String} {f : StorageFailure} {e : Entity}

theorem not_slotsFail_storage {slots : List Sql.Slot} : ¬Sql.SlotsFail t slots (.storage sql f) := by
  rintro ⟨slot, _, hfails⟩
  cases slot with
  | column id v => exact t.storageFree_bind id v sql f hfails
  | pattern id v => exact t.storageFree_requireColumn id sql f hfails
  | limit n => exact hfails

theorem not_foreign_storage : ¬t.Foreign e (.storage sql f) := fun h => by cases h.2

theorem not_keyError_storage : ¬t.KeyError e (.storage sql f) := fun h => by cases h

variable (t)

theorem storageFree_select (q : Query) : StorageFree (t.select style q) :=
  (failsWith_select q).storageFree fun _ _ ⟨_, _, h⟩ => not_slotsFail_storage h

theorem storageFree_count (range : Option KeyRange) : StorageFree (t.count style range) :=
  (failsWith_count range).storageFree fun _ _ ⟨_, _, h⟩ => not_slotsFail_storage h

theorem storageFree_insert (e : Entity) (ctx : Context) : StorageFree (t.insert style e ctx) :=
  failsWith_insert.storageFree fun _ _ h => h.elim not_foreign_storage not_slotsFail_storage

theorem storageFree_update (e : Entity) (ctx : Context) : StorageFree (t.update style e ctx) :=
  failsWith_update.storageFree fun _ _ h => h.elim not_foreign_storage fun h =>
    h.elim not_keyError_storage fun ⟨_, _, _, h⟩ => not_slotsFail_storage h

theorem storageFree_delete (e : Entity) : StorageFree (t.delete style e) :=
  failsWith_delete.storageFree fun _ _ h => h.elim not_foreign_storage fun h =>
    h.elim not_keyError_storage fun ⟨_, _, h⟩ => not_slotsFail_storage h

end Table

theorem Session.storageFree_readCount (rows : List Row) : StorageFree (readCount rows) := by
  unfold readCount
  split
  · exact storageFree_ok _
  · split <;> exact fun _ _ h => by cases h

/-! ## Logged calls -/

/-- The storage with a log of the statements that it gets, the last one at the end. -/
def Storage.logged {σ : Type} (x : Storage σ) : Storage (List Statement × σ) where
  fetch s state := ((x.fetch s state.2).1, (state.1 ++ [s], (x.fetch s state.2).2))
  execute s state := ((x.execute s state.2).1, (state.1 ++ [s], (x.execute s state.2).2))

theorem Storage.affected_logged {σ : Type} (x : Storage σ) (s : Statement) (log : List Statement)
    (state : σ) : x.logged.affected s (log, state) =
      ((x.affected s state).1, (log ++ [s], (x.affected s state).2)) := rfl

namespace Session

variable {σ α : Type}

/-- A call, as it is and on storage with a log. The log changes nothing else. It has the statement
that was built for the call at its end, if there is one, and an error of storage names this
statement. -/
structure Sends (built : Except Error (Option Statement)) (log : List Statement)
    (plain : Except Error α × σ) (logged : Except Error α × (List Statement × σ)) : Prop where
  same : (logged.1, logged.2.2) = plain
  sent : logged.2.1 = log ++ built.toOption.join.toList
  failure : ∀ sql f, plain.1 = .error (.storage sql f) → ∃ s, built = .ok (some s) ∧ s.sql = sql

section
variable {built : Except Error (Option Statement)} {log : List Statement} {state next : σ}
  {result : Except Error α} {s : Statement}

theorem Sends.of_none (hbuilt : ∀ s, built ≠ .ok (some s)) (hfree : StorageFree result) :
    Sends built log (result, state) (result, (log, state)) where
  same := rfl
  sent := by
    cases built with
    | error e => exact (List.append_nil log).symm
    | ok o => cases o with
      | none => exact (List.append_nil log).symm
      | some s => exact absurd rfl (hbuilt s)
  failure sql f h := absurd h (hfree sql f)

theorem Sends.of_some (hresult : ∀ sql f, result = .error (.storage sql f) → s.sql = sql) :
    Sends (.ok (some s)) log (result, next) (result, (log ++ [s], next)) where
  same := rfl
  sent := rfl
  failure sql f h := ⟨s, rfl, hresult sql f h⟩

theorem Sends.map {β : Type} {plain : Except Error α × σ} {logged : Except Error α × (List Statement × σ)}
    (h : Sends built log plain logged) (g : α → β) :
    Sends built log (plain.1.map g, plain.2) (logged.1.map g, logged.2) := by
  obtain ⟨hsame, hsent, hfailure⟩ := h
  subst hsame
  refine ⟨rfl, hsent, fun sql f hf => hfailure sql f ?_⟩
  dsimp only at hf ⊢
  cases hresult : logged.1 with
  | ok a => rw [hresult] at hf; cases hf
  | error e => rw [hresult] at hf; cases hf; rfl

end

theorem sql_of_describe {s : Statement} {reply : Except StorageFailure α} {sql : String}
    {f : StorageFailure} (h : Storage.describe s reply = .error (.storage sql f)) : s.sql = sql := by
  cases reply with
  | ok a => cases h
  | error failure => cases h; rfl

theorem sql_of_describe_bind {β : Type} {s : Statement} {reply : Except StorageFailure α}
    {g : α → Except Error β} (hg : ∀ a, StorageFree (g a)) {sql : String} {f : StorageFailure}
    (h : (Storage.describe s reply).bind g = .error (.storage sql f)) : s.sql = sql := by
  cases reply with
  | ok a => exact absurd h (hg a sql f)
  | error failure => cases h; rfl

theorem sql_of_affected (x : Storage σ) (s : Statement) (state : σ) (sql : String)
    (f : StorageFailure) (h : (x.affected s state).1 = .error (.storage sql f)) : s.sql = sql :=
  sql_of_describe h

def reported (outcome : (Except Error Nat × Entity) × σ) : Except Error Nat × σ :=
  (outcome.1.1, outcome.2)

variable (x : Storage σ) (u : Session) (log : List Statement) (state : σ)

theorem select_sends (t : Table) (q : Query) : Sends (t.select u.style q) log (u.select x t q state)
    (u.select x.logged t q (log, state)) := by
  have hfree := t.storageFree_select u.style q
  unfold select
  cases hs : t.select u.style q with
  | error e => exact .of_none (by simp) (hs ▸ hfree).of_error
  | ok o =>
    cases o with
    | none => exact .of_none (by simp) (storageFree_ok _)
    | some s =>
      exact .of_some fun sql f h => sql_of_describe_bind
        (fun rows => StorageFree.mapM (Entity.storageFree_ofRow t) rows) h

theorem count_sends (t : Table) (range : Option KeyRange) : Sends (t.count u.style range) log
    (u.count x t range state) (u.count x.logged t range (log, state)) := by
  have hfree := t.storageFree_count u.style range
  unfold count
  cases hs : t.count u.style range with
  | error e => exact .of_none (by simp) (hs ▸ hfree).of_error
  | ok o =>
    cases o with
    | none => exact .of_none (by simp) (storageFree_ok _)
    | some s => exact .of_some fun sql f h => sql_of_describe_bind storageFree_readCount h

theorem insert_sends (e : Entity) : Sends ((e.table.insert u.style e u.context).map some) log
    (reported (u.insert x e state)) (reported (u.insert x.logged e (log, state))) := by
  have hfree := e.table.storageFree_insert u.style e u.context
  unfold insert
  cases hs : e.table.insert u.style e u.context with
  | error err => exact .of_none (fun _ h => by cases h) (hs ▸ hfree).of_error
  | ok s =>
    have hsql := sql_of_affected x s state
    dsimp only
    rw [x.affected_logged]
    generalize x.affected s state = outcome at hsql ⊢
    obtain ⟨result, next⟩ := outcome
    cases result <;> exact .of_some hsql

theorem update_sends (e : Entity) : Sends (e.table.update u.style e u.context) log
    (reported (u.update x e state)) (reported (u.update x.logged e (log, state))) := by
  have hfree := e.table.storageFree_update u.style e u.context
  unfold update
  cases hs : e.table.update u.style e u.context with
  | error err => exact .of_none (by simp) (hs ▸ hfree).of_error
  | ok o =>
    cases o with
    | none => exact .of_none (by simp) (storageFree_ok _)
    | some s =>
      have hsql := sql_of_affected x s state
      dsimp only
      rw [x.affected_logged]
      generalize x.affected s state = outcome at hsql ⊢
      obtain ⟨result, next⟩ := outcome
      cases result <;> exact .of_some hsql

theorem delete_sends (e : Entity) : Sends ((e.table.delete u.style e).map some) log
    (u.delete x e state) (u.delete x.logged e (log, state)) := by
  have hfree := e.table.storageFree_delete u.style e
  unfold delete
  cases hs : e.table.delete u.style e with
  | error err => exact .of_none (fun _ h => by cases h) (hs ▸ hfree).of_error
  | ok s => exact .of_some fun sql f h => sql_of_describe h

theorem first_sends (t : Table) (range : KeyRange) : Sends (t.select u.style (.first range)) log
    (u.first x t range state) (u.first x.logged t range (log, state)) :=
  (select_sends x u log state t (.first range)).map List.head?

/-! ## Writes that fail -/

variable {x u state} {e after : Entity} {next : σ}

theorem eq_of_insert_error {err : Error} (h : u.insert x e state = ((.error err, after), next)) :
    after = e := by
  rcases insert_cases x u e state with ⟨_, hresult⟩ | ⟨_, _, ⟨_, _, _, hresult⟩ | ⟨_, _, _, hresult⟩⟩
  all_goals rw [hresult] at h; cases h
  · rfl
  · rfl

theorem eq_of_update_zero {result : Except Error Nat}
    (h : u.update x e state = ((result, after), next)) (hzero : ∀ n, result = .ok n → n = 0) :
    after = e := by
  rcases update_cases x u e state with
    ⟨_, _, hresult⟩ | ⟨_, _, ⟨_, _, _, hresult⟩ | ⟨n, _, _, hresult⟩⟩
  all_goals rw [hresult] at h; cases h
  · rfl
  · rfl
  · exact if_pos (hzero n rfl)

/-- **Every call sends at most one statement, and a write that fails leaves its entity alone.** What
is sent is the statement that was built, and nothing where none could be built, where the range
matches no row or where an update has nothing to write. An error of storage names the statement that
was sent. After an insert or update that fails, and after an update of no row, the entity is the one
that was given. -/
theorem calls_send_one (x : Storage σ) (u : Session) (log : List Statement) (state : σ) :
    (∀ t q, Sends (t.select u.style q) log (u.select x t q state)
        (u.select x.logged t q (log, state)) ∧
      (t.condition? q.range = none → t.select u.style q = .ok none)) ∧
    (∀ t range, Sends (t.select u.style (.first range)) log (u.first x t range state)
      (u.first x.logged t range (log, state))) ∧
    (∀ t range, Sends (t.count u.style range) log (u.count x t range state)
        (u.count x.logged t range (log, state)) ∧
      (t.condition? range = none → t.count u.style range = .ok none)) ∧
    (∀ e, Sends ((e.table.insert u.style e u.context).map some) log (reported (u.insert x e state))
        (reported (u.insert x.logged e (log, state))) ∧
      ∀ err after next, u.insert x e state = ((.error err, after), next) → after = e) ∧
    (∀ e, Sends (e.table.update u.style e u.context) log (reported (u.update x e state))
        (reported (u.update x.logged e (log, state))) ∧
      (e.updates e.table u.context = [] → ∀ s, e.table.update u.style e u.context ≠ .ok (some s)) ∧
      ∀ result after next, u.update x e state = ((result, after), next) →
        (∀ n, result = .ok n → n = 0) → after = e) ∧
    (∀ e, Sends ((e.table.delete u.style e).map some) log (u.delete x e state)
      (u.delete x.logged e (log, state))) := by
  refine ⟨fun t q => ⟨select_sends x u log state t q, fun hnone => ?_⟩, first_sends x u log state,
    fun t range => ⟨count_sends x u log state t range, fun hnone => ?_⟩,
    fun e => ⟨insert_sends x u log state e, fun _ _ _ => eq_of_insert_error⟩,
    fun e => ⟨update_sends x u log state e, fun hnil s hs => ?_, fun _ _ _ => eq_of_update_zero⟩,
    delete_sends x u log state⟩
  · rw [Table.select, hnone]
  · rw [Table.count, hnone]
  · exact Table.updates_ne_nil_of_update hs hnil

section
private def lampTable : Table :=
  { name := "lamps", columns := [⟨"id", .integer, none, none⟩, ⟨"watts", .integer, none, none⟩],
    key := [⟨"id", .ascending⟩] }

private def lamp : Entity where
  table := lampTable
  fields := [.set (.integer 1), .set (.integer 60)]
  baseline := some [.set (.integer 1), .set (.integer 40)]
  fields_length := rfl
  baseline_length := by simp [lampTable]

/-- Storage that refuses everything gets the one statement of an update, which the error names, and
nothing for a range that matches no row. -/
theorem calls_send_one_refused :
    let u : Session := ⟨⟨⟨⟨2024, 2, 29, by decide⟩, .midnight⟩, "ann", "till", false, false⟩, {}⟩
    let x : Storage Unit := ⟨fun _ _ => (.error ⟨"down", none⟩, ()), fun _ _ => (.error ⟨"down", none⟩, ())⟩
    (∃ s sql failure after, lampTable.update {} lamp u.context = .ok (some s) ∧
      u.update x lamp () = ((.error (.storage sql failure), after), ()) ∧ s.sql = sql ∧ after = lamp ∧
      (u.update x.logged lamp ([], ())).2.1 = [s]) ∧
    (u.select x.logged lampTable { range := some (.eq []) } ([], ())).2.1 = [] := by
  intro u x
  obtain ⟨hselect, _, _, _, hupdate, _⟩ := calls_send_one x u [] ()
  obtain ⟨hsends, _, hkept⟩ := hupdate lamp
  obtain ⟨s, hs⟩ : ∃ s, lampTable.update {} lamp u.context = .ok (some s) := ⟨_, rfl⟩
  obtain ⟨sql, failure, after, hafter⟩ : ∃ sql failure after,
      u.update x lamp () = ((.error (.storage sql failure), after), ()) := ⟨_, _, _, rfl⟩
  have hresult : (reported (u.update x lamp ())).1 = .error (.storage sql failure) := by
    rw [hafter]
    rfl
  obtain ⟨s', hs', hsql⟩ := hsends.failure sql failure hresult
  cases hs.symm.trans hs'
  refine ⟨⟨s, sql, failure, after, hs, hafter, hsql, hkept _ after () hafter (by simp), ?_⟩, ?_⟩
  · exact hsends.sent.trans (by rw [hs']; rfl)
  · have hnone := (hselect lampTable { range := some (.eq []) }).2 rfl
    exact (hselect lampTable { range := some (.eq []) }).1.sent.trans (by rw [hnone]; rfl)

end
end Session
end KeyedRows
