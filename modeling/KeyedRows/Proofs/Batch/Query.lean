import KeyedRows.Proofs.Batch.Requests
import KeyedRows.Proofs.Sql.Address

/-!
# The query of a flush

* `Predicate.alternatives?` : the tuples that a condition lists, each with its columns;
* `alternatives?_oneOf` : the condition of some tuples lists these, in either of its two forms;
* `mem_tuples`, `nodup_tuples` : a flush asks for the tuples that wait, each once;
* `AsksOnce`, `Ready.asksOnce` : so does the condition of its query;
* `Ready.exists_select` : the tuples that wait can always be asked for by a select;
* `received`, `Ready.flush_of_selectWhere` : a flush sends that select and takes in what comes back;
* `flush_cases` : what can come of a flush.
-/

namespace KeyedRows

/-! ## Tuples of a condition -/

namespace Predicate

/-- The column and the value that an equality is about; a test for null is about null. -/
def equality? : Predicate → Option (String × Value)
  | compare column .eq v => some (column, v)
  | isNull column => some (column, .null)
  | _ => none

/-- The tuples that one part of a disjunction stands for, each next to its columns. -/
def listed? : Predicate → Option (List (List (String × Value)))
  | isIn column values => some (values.map fun v => [(column, v)])
  | p => (p.conjuncts.mapM equality?).map fun tuple => [tuple]

/-- The tuples of which a condition asks for any. -/
def alternatives? (p : Predicate) : Option (List (List (String × Value))) :=
  (p.disjuncts.mapM listed?).map List.flatten

theorem equality?_eq (column : String) (v : Value) : (eq column v).equality? = some (column, v) := by
  unfold eq
  split
  · next h =>
    rw [Value.isNull_eq_true.1 h]
    rfl
  · rfl

theorem parts_eq (j : Junction) (column : String) (v : Value) : j.parts (eq column v) = [eq column v] := by
  unfold eq
  split <;> cases j <;> rfl

theorem listed?_eq (column : String) (v : Value) :
    (eq column v).listed? = ([eq column v].mapM equality?).map fun tuple => [tuple] := by
  unfold eq
  split <;> rfl

end Predicate

namespace KeyRange

theorem equalities_cons (part : KeyPart) (key : Key) (v : Value) (values : List Value) :
    equalities (part :: key) (v :: values) = .eq part.column v :: equalities key values := rfl

theorem mem_equalities : ∀ {key : Key} {values : List Value} {p : Predicate},
    p ∈ equalities key values → ∃ column v, p = .eq column v
  | [], _, p, hp => by simp [equalities] at hp
  | _ :: _, [], p, hp => by simp [equalities] at hp
  | part :: key, v :: values, p, hp => by
    rw [equalities_cons, List.mem_cons] at hp
    rcases hp with rfl | hp
    · exact ⟨part.column, v, rfl⟩
    · exact mem_equalities hp

theorem mapM_equality?_equalities : ∀ (key : Key) (values : List Value),
    (equalities key values).mapM Predicate.equality? = some ((key.map KeyPart.column).zip values)
  | [], _ => rfl
  | _ :: _, [] => rfl
  | part :: key, v :: values => by
    rw [equalities_cons, List.mapM_cons, Predicate.equality?_eq, mapM_equality?_equalities key values]
    rfl

/-- The condition of one tuple is a conjunction, unless the tuple has a single value. -/
theorem all_equalities_cases (key : Key) (values : List Value) :
    Predicate.all (equalities key values) = .and (equalities key values) ∨
      ∃ column v, equalities key values = [.eq column v] ∧
        Predicate.all (equalities key values) = .eq column v := by
  have hself : ∀ p ∈ equalities key values, p.conjuncts = [p] := by
    intro p hp
    obtain ⟨column, v, rfl⟩ := mem_equalities hp
    exact Predicate.parts_eq .and column v
  by_cases hlength : (equalities key values).length = 1
  · obtain ⟨p, hp⟩ := List.length_eq_one_iff.1 hlength
    obtain ⟨column, v, rfl⟩ := mem_equalities (hp ▸ List.mem_singleton_self p)
    rw [hp]
    exact .inr ⟨column, v, rfl, Junction.and.merge_singleton (Predicate.parts_eq .and column v)⟩
  · exact .inl (Junction.and.merge_eq_group hlength hself)

theorem disjuncts_all_equalities (key : Key) (values : List Value) :
    (Predicate.all (equalities key values)).disjuncts = [.all (equalities key values)] := by
  rcases all_equalities_cases key values with h | ⟨column, v, _, h⟩
  · rw [h]
    rfl
  · rw [h]
    exact Predicate.parts_eq .or column v

theorem listed?_all_equalities (key : Key) (values : List Value) :
    (Predicate.all (equalities key values)).listed? =
      some [(key.map KeyPart.column).zip values] := by
  have hmap := mapM_equality?_equalities key values
  rcases all_equalities_cases key values with h | ⟨column, v, hsingle, h⟩
  · rw [h, Predicate.listed?, Predicate.conjuncts, hmap]
    · rfl
    · simp
  · rw [hsingle] at hmap
    rw [h, Predicate.listed?_eq, hmap]
    rfl

theorem mapM_listed?_all_equalities (key : Key) : ∀ tuples : List (List Value),
    (tuples.map fun values => Predicate.all (equalities key values)).mapM Predicate.listed? =
      some (tuples.map fun values => [(key.map KeyPart.column).zip values])
  | [] => rfl
  | values :: tuples => by
    rw [List.map_cons, List.mapM_cons, listed?_all_equalities, mapM_listed?_all_equalities key tuples]
    rfl

/-- Of tuples with a single value that is not null, the condition is the list of these values. -/
theorem oneOf_cases (key : Key) (tuples : List (List Value)) :
    oneOf key tuples = .any (tuples.map fun values => .all (equalities key values)) ∨
      ∃ part rest values, key = part :: rest ∧ tuples = values.map (fun v => [v]) ∧
        oneOf key tuples = .isIn part.column values := by
  cases key with
  | nil => exact .inl rfl
  | cons part rest =>
    cases hsingle : tuples.mapM single? with
    | none => exact .inl (by simp only [oneOf, hsingle])
    | some values =>
      refine .inr ⟨part, rest, values, rfl, ?_, by simp only [oneOf, hsingle]⟩
      have hvalues : List.Forall₂ (fun tuple v => tuple = [v]) tuples values :=
        (mapM_eq_some.1 hsingle).imp fun _ _ h => (eq_of_single? h).1
      rw [← List.forall₂_eq_eq_eq, List.forall₂_map_right_iff]
      exact hvalues

/-- **The condition of some tuples lists these tuples**, also where it is a list of values. -/
theorem alternatives?_oneOf (key : Key) (tuples : List (List Value)) :
    (oneOf key tuples).alternatives? =
      some (tuples.map fun values => (key.map KeyPart.column).zip values) := by
  rcases oneOf_cases key tuples with h | ⟨part, rest, values, rfl, rfl, h⟩
  · have hparts : ∀ p ∈ tuples.map fun values => Predicate.all (equalities key values),
        p.disjuncts = [p] := by
      intro p hp
      obtain ⟨values, _, rfl⟩ := List.mem_map.1 hp
      exact disjuncts_all_equalities key values
    have hdisjuncts : (Predicate.any (tuples.map fun values => .all (equalities key values))).disjuncts =
        _ := Junction.or.parts_merge (Junction.or.flatMap_parts_eq_self hparts) hparts
    rw [h, Predicate.alternatives?, hdisjuncts, mapM_listed?_all_equalities, Option.map_some,
      ← List.flatMap_def, ← List.map_eq_flatMap]
  · rw [h]
    simp [Predicate.alternatives?, Predicate.disjuncts, Predicate.listed?]

end KeyRange

namespace Batch

/-! ## Tuples of a flush -/

theorem nodup_eraseDups {α : Type*} [BEq α] [LawfulBEq α] : ∀ xs : List α, xs.eraseDups.Nodup
  | [] => by simp
  | x :: xs => by
    rw [List.eraseDups_cons, List.nodup_cons]
    refine ⟨fun hmem => ?_, nodup_eraseDups _⟩
    simpa using List.mem_eraseDups.1 hmem
termination_by xs => xs.length
decreasing_by exact Nat.lt_succ_of_le (List.length_filter_le ..)

variable {b : Batch}

theorem mem_tuples {key : List Value} : key ∈ b.tuples ↔
    key ∈ (b.ones.waiting ++ b.manies.waiting).map Request.key := List.mem_eraseDups

theorem mem_tuples_iff {key : List Value} :
    key ∈ b.tuples ↔ ∃ kind, ∃ w ∈ b.waiting kind, w.key = key := by
  rw [mem_tuples, List.mem_map]
  constructor
  · rintro ⟨w, hw, rfl⟩
    rcases List.mem_append.1 hw with hw | hw
    · exact ⟨.one, w, hw, rfl⟩
    · exact ⟨.many, w, hw, rfl⟩
  · rintro ⟨kind, w, hw, rfl⟩
    cases kind with
    | one => exact ⟨w, List.mem_append_left _ hw, rfl⟩
    | many => exact ⟨w, List.mem_append_right _ hw, rfl⟩

theorem nodup_tuples : b.tuples.Nodup := nodup_eraseDups _

theorem tuples_ne_nil (hpending : b.pending ≠ 0) : b.tuples ≠ [] := by
  intro hnil
  have hwaiting : b.ones.waiting ++ b.manies.waiting = [] := by
    refine List.eq_nil_iff_forall_not_mem.2 fun r hr => ?_
    have hkey : r.key ∈ b.tuples := mem_tuples.2 (List.mem_map_of_mem hr)
    rw [hnil] at hkey
    cases hkey
  rw [pending, ← List.length_append, hwaiting] at hpending
  exact hpending rfl

theorem Ready.takes_of_tuples (h : b.Ready) {key : List Value} (hkey : key ∈ b.tuples) :
    ∃ tuple, b.table.Takes tuple key :=
  h.taken key (mem_tuples.1 hkey)

theorem Ready.nodup_zip_tuples (h : b.Ready) :
    (b.tuples.map fun values => b.table.keyColumns.zip values).Nodup := by
  have hvalues : ∀ key ∈ b.tuples, (b.table.keyColumns.zip key).map Prod.snd = key := by
    intro key hkey
    obtain ⟨tuple, htakes⟩ := h.takes_of_tuples hkey
    refine List.map_snd_zip ?_
    rw [Table.keyColumns, List.length_map]
    exact htakes.fits.2
  refine List.Nodup.map_on (fun key hkey key' hkey' heq => ?_) nodup_tuples
  rw [← hvalues key hkey, ← hvalues key' hkey', heq]

theorem Ready.predicate?_tuples (h : b.Ready) (hpending : b.pending ≠ 0) :
    (KeyRange.isIn b.tuples).predicate? b.table.key =
      some (KeyRange.oneOf b.table.key b.tuples) := by
  rw [KeyRange.predicate?, if_pos]
  refine ⟨tuples_ne_nil hpending, fun key hkey => ?_⟩
  obtain ⟨tuple, htakes⟩ := h.takes_of_tuples hkey
  exact htakes.fits

/-- A condition lists each tuple that waits exactly once, next to its columns, and no other. -/
def AsksOnce (b : Batch) (p : Predicate) : Prop :=
  ∃ tuples, p.alternatives? = some tuples ∧
    (∀ kind, ∀ w ∈ b.waiting kind, tuples.count (b.table.keyColumns.zip w.key) = 1) ∧
    ∀ tuple ∈ tuples, ∃ kind, ∃ w ∈ b.waiting kind, tuple = b.table.keyColumns.zip w.key

theorem Ready.asksOnce (h : b.Ready) : b.AsksOnce (KeyRange.oneOf b.table.key b.tuples) := by
  refine ⟨_, KeyRange.alternatives?_oneOf b.table.key b.tuples, fun kind w hw => ?_,
    fun tuple htuple => ?_⟩
  · have hkey : w.key ∈ b.tuples := mem_tuples_iff.2 ⟨kind, w, hw, rfl⟩
    exact List.count_eq_one_of_mem h.nodup_zip_tuples (List.mem_map_of_mem hkey)
  · obtain ⟨key, hkey, rfl⟩ := List.mem_map.1 htuple
    obtain ⟨kind, w, hw, rfl⟩ := mem_tuples_iff.1 hkey
    exact ⟨kind, w, hw, rfl⟩

/-! ## The statement -/

def query (b : Batch) : Query := { range := some (.isIn b.tuples) }

theorem Ready.condition?_query (h : b.Ready) (hpending : b.pending ≠ 0) :
    b.table.condition? b.query.range = some (some (KeyRange.oneOf b.table.key b.tuples)) := by
  rw [query, Table.condition?, h.predicate?_tuples hpending]
  rfl

/-- **The tuples that wait can be asked for by a select**, since they were coerced when they were
taken. -/
theorem Ready.exists_select (h : b.Ready) (hpending : b.pending ≠ 0) :
    ∃ s, b.table.select b.style b.query = .ok (some s) ∧
      b.table.selectWhere b.style (some (KeyRange.oneOf b.table.key b.tuples)) none false = .ok s := by
  refine Table.select_of_bindable (h.condition?_query hpending) ?_
  refine KeyRange.bindable_oneOf fun key hkey => ?_
  obtain ⟨tuple, htakes⟩ := h.takes_of_tuples hkey
  exact htakes.2.bindsAll.2

theorem kind_of_selectWhere {t : Table} {style : Style} {p : Option Predicate} {limit : Option Nat}
    {reverse : Bool} {s : Statement} (h : t.selectWhere style p limit reverse = .ok s) :
    s.kind = .select := by
  obtain ⟨condition, _, h⟩ := bind_eq_ok.1 h
  cases h
  rfl

theorem Ready.columns_ne_nil (h : b.Ready) (hpending : b.pending ≠ 0) : b.table.columns ≠ [] := by
  obtain ⟨key, hkey⟩ := List.exists_mem_of_ne_nil _ (tuples_ne_nil hpending)
  obtain ⟨tuple, ⟨hne, _⟩, hcoerces⟩ := h.takes_of_tuples hkey
  generalize b.table.keyColumns = columns at hcoerces
  intro hnil
  cases hcoerces with
  | nil => exact hne rfl
  | cons hc =>
    rw [Table.column?, hnil] at hc
    cases hc

/-- What the reply to a sent query makes of a batch. -/
def received (b : Batch) (reply : Except Error (List Row)) : Except Error Unit × Batch :=
  match reply.bind fun rows => rows.mapM (Entity.ofRow b.table) with
  | .error e => (.error e, b.countQuery.poison)
  | .ok es => (.ok (), b.countQuery.resolve es)

theorem received_ok_iff {reply : Except Error (List Row)} : (b.received reply).1 = .ok () ↔
    ∃ rows es, reply = .ok rows ∧ rows.mapM (Entity.ofRow b.table) = .ok es := by
  have hiff : (∃ rows es, reply = .ok rows ∧ rows.mapM (Entity.ofRow b.table) = .ok es) ↔
      ∃ es, reply >>= (fun rows => rows.mapM (Entity.ofRow b.table)) = .ok es := by
    simp only [bind_eq_ok]
    exact exists_comm
  rw [hiff, received]
  show _ ↔ ∃ es, (reply.bind fun rows => rows.mapM (Entity.ofRow b.table)) = .ok es
  cases reply.bind fun rows => rows.mapM (Entity.ofRow b.table) <;> simp

theorem Ready.flush_of_selectWhere (h : b.Ready) (hpending : b.pending ≠ 0) {s : Statement}
    (hs : b.table.selectWhere b.style (some (KeyRange.oneOf b.table.key b.tuples)) none false = .ok s)
    {σ : Type} (x : Storage σ) (state : σ) :
    b.flush x state = (b.received (x.rows s state).1, (x.rows s state).2) := by
  unfold flush received
  rw [if_neg (by simp [h.poisoned]), if_neg hpending, h.predicate?_tuples hpending]
  simp only [hs]
  cases (x.rows s state).1.bind fun rows => rows.mapM (Entity.ofRow b.table) <;> rfl

/-- What comes of a flush: a batch that an earlier flush has poisoned stays as it is, and so does one
without requests; any other sends its select, and fails or resolves its requests by the reply. -/
theorem flush_cases (h : b.poisoned = false → b.Ready) {σ : Type} (x : Storage σ) (state : σ) :
    (b.poisoned = true ∧ b.flush x state = ((.error .batchPoisoned, b), state)) ∨
      (b.poisoned = false ∧ b.pending = 0 ∧ b.flush x state = ((.ok (), b), state)) ∨
      ∃ s, b.poisoned = false ∧ b.pending ≠ 0 ∧
        b.table.selectWhere b.style (some (KeyRange.oneOf b.table.key b.tuples)) none false = .ok s ∧
        ((∃ e, b.flush x state = ((.error e, b.countQuery.poison), (x.fetch s state).2)) ∨
          ∃ es, b.flush x state = ((.ok (), b.countQuery.resolve es), (x.fetch s state).2)) := by
  cases hpoisoned : b.poisoned with
  | true => exact .inl ⟨rfl, by rw [flush, if_pos hpoisoned]⟩
  | false =>
    right
    by_cases hpending : b.pending = 0
    · exact .inl ⟨rfl, hpending, by rw [flush, if_neg (by simp [hpoisoned]), if_pos hpending]⟩
    · right
      obtain ⟨s, _, hs⟩ := (h hpoisoned).exists_select hpending
      refine ⟨s, rfl, hpending, hs, ?_⟩
      rw [(h hpoisoned).flush_of_selectWhere hpending hs, received]
      cases (x.rows s state).1.bind fun rows => rows.mapM (Entity.ofRow b.table) with
      | error e => exact .inl ⟨e, rfl⟩
      | ok es => exact .inr ⟨es, rfl⟩

end Batch
end KeyedRows
