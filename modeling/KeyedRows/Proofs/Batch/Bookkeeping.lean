import KeyedRows.Proofs.Batch.Run
import Mathlib.Data.List.Dedup

/-!
# The accounts of a batch

* `Table.forms` : the storage forms of a tuple, which decide whether two requests are the same;
* `place?_eq_some_iff` : the index finds the one request that waits under some values;
* `Run.Kept.given_perm` : the handles given out are the places of all answers, each once;
* `Run.Kept.handle_eq_iff` : a call gets the handle of a call that waits exactly if both store the
  same forms;
* `Run.bookkeeping` : the accounts agree after every run.
-/

namespace KeyedRows

/-! ## Forms of tuples -/

/-- The storage forms of a tuple, column by column. -/
def Table.forms (t : Table) (tuple : List Value) : List (Option Cell) :=
  t.keyColumns.zipWith t.stored? tuple

theorem Table.Coerces.inj_iff {t : Table} {columns : List String} {values coerced : List Value}
    (h : t.Coerces columns values coerced) : ∀ {values' coerced' : List Value},
      t.Coerces columns values' coerced' → (coerced = coerced' ↔
        columns.zipWith t.stored? values = columns.zipWith t.stored? values') := by
  induction h with
  | nil columns =>
    intro values' coerced' h'
    cases h' with
    | nil => simp
    | cons _ _ _ => simp
  | @cons column columns v w values coerced c hc hw _ ih =>
    intro values' coerced' h'
    cases h' with
    | nil => simp
    | @cons _ _ v' w' values' coerced' c' hc' hw' hrest' =>
      rw [hc, Option.some.injEq] at hc'
      subst hc'
      rw [List.zipWith_cons_cons, List.zipWith_cons_cons, List.cons.injEq, List.cons.injEq,
        stored?_of_column? hc, stored?_of_column? hc, ih hrest', ColumnType.coerce_inj_iff hw hw']

namespace Batch

/-! ## The index -/

theorem place?_eq_some_iff {b : Batch} {kind : RequestKind} {key : List Value} {i : Nat}
    (hkeys : ((b.waiting kind).map Request.key).Nodup) :
    b.index.place? kind key = some i ↔ (b.waiting kind)[i]?.map Request.key = some key := by
  have hindexed := fun j => b.indexed kind key j
  constructor
  · intro h
    exact (hindexed i).1 (RequestIndex.mem_of_place? h)
  · intro h
    cases hplace : b.index.place? kind key with
    | none => exact absurd ((hindexed i).2 h) (RequestIndex.notMem_of_place? hplace i)
    | some j =>
      have hj := (hindexed j).1 (RequestIndex.mem_of_place? hplace)
      change (b.waiting kind)[j]?.map Request.key = some key at hj
      rw [← List.getElem?_map] at h hj
      have hi : i < ((b.waiting kind).map Request.key).length := (List.getElem?_eq_some_iff.1 h).1
      rw [(List.getElem?_inj hi hkeys).1 (h.trans hj.symm)]

/-! ## Handles -/

def allHandles (b : Batch) : List Handle :=
  (List.range b.ones.answers.length).map (Prod.mk .one) ++
    (List.range b.manies.answers.length).map (Prod.mk .many)

theorem nodup_allHandles (b : Batch) : b.allHandles.Nodup := by
  refine List.nodup_append.2 ⟨List.nodup_range.map (Prod.mk_right_injective _),
    List.nodup_range.map (Prod.mk_right_injective _), fun handle hone handle' hmany => ?_⟩
  obtain ⟨i, _, rfl⟩ := List.mem_map.1 hone
  obtain ⟨j, _, rfl⟩ := List.mem_map.1 hmany
  simp

/-- The handle is still to be resolved. -/
def isPending (b : Batch) (handle : Handle) : Bool :=
  (b.shown? handle).any fun a => a.resolution = .pending

namespace Run

variable {t : Table} {style : Style} {r : Run}

/-- The handles given out are the places of all answers, each once. -/
theorem Kept.given_perm (h : Kept t style r) : r.given.dedup.Perm r.batch.allHandles := by
  rw [List.perm_ext_iff_of_nodup (List.nodup_dedup _) r.batch.nodup_allHandles]
  rintro ⟨kind, i⟩
  rw [List.mem_dedup, h.given kind i]
  cases kind <;> simp [allHandles, handles, RequestKind.choose]

theorem Kept.pending_eq (h : Kept t style r) :
    r.batch.pending = (r.given.dedup.filter r.batch.isPending).length := by
  have hone : r.batch.isPending ∘ Prod.mk .one =
      fun i => (r.batch.ones.answers[i]?).any Answer.isPending := by
    funext i
    exact Option.any_map
  have hmany : r.batch.isPending ∘ Prod.mk .many =
      fun i => (r.batch.manies.answers[i]?).any Answer.isPending := by
    funext i
    exact Option.any_map
  rw [(h.given_perm.filter _).length_eq, allHandles, List.filter_append, List.length_append,
    List.filter_map, List.filter_map, List.length_map, List.length_map, hone, hmany,
    h.ones.length_filter_isPending, h.manies.length_filter_isPending, pending]

/-! ## Calls -/

theorem Kept.nodup_keys (h : Kept t style r) (kind : RequestKind) :
    ((r.batch.waiting kind).map Request.key).Nodup := by
  cases kind with
  | one => exact h.ones.keys
  | many => exact h.manies.keys

/-- Two requests that wait have the same handle exactly if they wait under the same values. -/
theorem Kept.handle_eq_iff (h : Kept t style r) {kind : RequestKind} {w w' : Request (List Value)}
    (hw : w ∈ r.batch.waiting kind) (hw' : w' ∈ r.batch.waiting kind) :
    w.handle = w'.handle ↔ w.key = w'.key := by
  cases kind with
  | one =>
    exact ⟨fun heq => by rw [h.ones.eq_of_handle hw hw' heq],
      fun heq => by rw [h.ones.eq_of_key hw hw' heq]⟩
  | many =>
    exact ⟨fun heq => by rw [h.manies.eq_of_handle hw hw' heq],
      fun heq => by rw [h.manies.eq_of_key hw hw' heq]⟩

/-- A call since the last flush that succeeded waits under the values of another exactly if both
have the same storage forms. -/
theorem Kept.exists_waiting (h : Kept t style r) {call call' : Call} {j : Nat} {key : List Value}
    (hlive : (call', j) ∈ r.live) (htakes : r.batch.table.Takes call.tuple key) :
    ∃ key', ⟨key', j⟩ ∈ r.batch.waiting call'.kind ∧
      (key' = key ↔ t.forms call'.tuple = t.forms call.tuple) := by
  obtain ⟨key', htakes', hw⟩ := waits_iff.1 (h.waits call' j hlive)
  rw [h.table] at htakes htakes'
  exact ⟨key', hw, htakes'.2.inj_iff htakes.2⟩

/-- A call that is taken gets the handle of the calls that wait with the same storage forms, and a
new handle if there are none. -/
theorem Kept.taken_iff (h : Kept t style r) {call : Call} {i : Nat}
    (htaken : (r.batch.request call).1 = .ok i) :
    (∀ call' j, (call', j) ∈ r.live → call'.kind = call.kind →
      (j = i ↔ t.forms call'.tuple = t.forms call.tuple)) ∧
    ((call.kind, i) ∈ r.given ↔ ∃ call' j, (call', j) ∈ r.live ∧ call'.kind = call.kind ∧
      t.forms call'.tuple = t.forms call.tuple) := by
  rcases r.batch.request_cases call with
    ⟨e, _, heq⟩ | ⟨key, _, htakes, ⟨i', hw, heq⟩ | ⟨hkey, heq⟩⟩
  · rw [heq] at htaken
    cases htaken
  · rw [heq] at htaken
    cases htaken
    refine ⟨fun call' j hlive hkind => ?_, fun _ => ?_, fun _ => ?_⟩
    · obtain ⟨key', hw', hforms⟩ := h.exists_waiting hlive htakes
      rw [hkind] at hw'
      rw [← hforms]
      exact h.handle_eq_iff hw' hw
    · obtain ⟨call', hlive, hkind, htakes'⟩ := h.called call.kind ⟨key, i⟩ hw
      rw [h.table] at htakes htakes'
      exact ⟨call', i, hlive, hkind, (htakes'.2.inj_iff htakes.2).1 rfl⟩
    · exact (h.given _ _).2 (h.handle_lt hw)
  · rw [heq] at htaken
    cases htaken
    have hne : ∀ call' j, (call', j) ∈ r.live → call'.kind = call.kind →
        j < r.batch.handles call.kind ∧ t.forms call'.tuple ≠ t.forms call.tuple := by
      intro call' j hlive hkind
      obtain ⟨key', hw', hforms⟩ := h.exists_waiting hlive htakes
      rw [hkind] at hw'
      refine ⟨h.handle_lt hw', fun hsame => hkey ?_⟩
      rw [← hforms.2 hsame]
      exact List.mem_map_of_mem hw'
    refine ⟨fun call' j hlive hkind => ?_, fun hgiven => ?_, ?_⟩
    · obtain ⟨hj, hforms⟩ := hne call' j hlive hkind
      exact ⟨fun heq => by omega, fun hsame => absurd hsame hforms⟩
    · exact absurd ((h.given _ _).1 hgiven) (Nat.lt_irrefl _)
    · rintro ⟨call', j, hlive, hkind, hsame⟩
      exact absurd hsame (hne call' j hlive hkind).2

theorem Kept.requests_eq (h : Kept t style r) :
    r.batch.stats.requests = r.batch.stats.deduplicated + r.given.dedup.length := by
  rw [h.given_perm.length_eq, allHandles, List.length_append, List.length_map, List.length_map,
    List.length_range, List.length_range, h.requests, Nat.add_assoc]
  rfl

/-- **The accounts of a batch agree after every run**, whatever was asked for and whatever storage
replied.

* The index has the place of each waiting request under its kind and values, and nothing else.
* No two requests of a kind wait under the same values.
* A call is taken if its tuple fits the key and can be coerced, as long as no flush has failed.
* A call that is taken has the handle of the calls of its kind that wait with the same storage
  forms. If there are none, its handle was never given out.
* A call that is rejected changes nothing.
* The requests that were no repetitions are the handles given out, and those that wait are the
  handles that are not resolved. -/
theorem bookkeeping (t : Table) (style : Style) (all : List Step) :
    let r := Run.of t style all
    let b := r.batch
    (∀ kind key i, b.index.place? kind key = some i ↔
      (b.waiting kind)[i]?.map Request.key = some key) ∧
    (∀ kind, ((b.waiting kind).map Request.key).Nodup) ∧
    (∀ call, (∃ i, (b.request call).1 = .ok i) ↔
      b.poisoned = false ∧ ∃ key, t.Takes call.tuple key) ∧
    (∀ call i, (b.request call).1 = .ok i →
      (∀ call' j, (call', j) ∈ r.live → call'.kind = call.kind →
        (j = i ↔ t.forms call'.tuple = t.forms call.tuple)) ∧
      ((call.kind, i) ∈ r.given ↔ ∃ call' j, (call', j) ∈ r.live ∧ call'.kind = call.kind ∧
        t.forms call'.tuple = t.forms call.tuple)) ∧
    (∀ call e, (b.request call).1 = .error e → (b.request call).2 = b) ∧
    b.stats.requests = b.stats.deduplicated + r.given.dedup.length ∧
    b.pending = (r.given.dedup.filter b.isPending).length := by
  intro r b
  have hkept : Kept t style r := kept_of t style all
  have htaken : ∀ call, (∃ i, (b.request call).1 = .ok i) ↔
      b.poisoned = false ∧ ∃ key, t.Takes call.tuple key := by
    intro call
    rw [← hkept.table]
    exact exists_request_iff
  exact ⟨fun kind _ _ => place?_eq_some_iff (hkept.nodup_keys kind), hkept.nodup_keys, htaken,
    fun _ _ hi => hkept.taken_iff hi, fun _ _ he => request_of_error he, hkept.requests_eq,
    hkept.pending_eq⟩

/-- A text that the column reads as a number asks for the same as the number, in one kind. -/
example :
    let t : Table :=
      { name := "orders", columns := [⟨"no", .integer, none, none⟩], key := [⟨"no", .ascending⟩] }
    let calls : List Call := [.one [.string "007"], .one [.integer 7], .many [.integer 7]]
    ((Batch.new t {}).requestAll calls).1 = [.ok 0, .ok 0, .ok 0] ∧
      ((Batch.new t {}).requestAll calls).2.pending = 2 := by decide

end Run
end Batch
end KeyedRows
