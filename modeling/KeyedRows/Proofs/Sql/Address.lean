import KeyedRows.Proofs.Sql.Condition
import KeyedRows.Sql.Write

/-!
# The row that a write addresses

* `Table.keyEqualities` : the equalities of a key condition, key columns paired with values;
* `Predicate.AddressesKey` : a condition with an equality for every key column;
* `KeysAgree` : what two definitions of a table must share for such a condition;
* `Table.update_cases`, `Table.delete_eq_ok` : what accepted writes are;
* `write_addresses_iff` : an update or delete addresses one full key exactly if the definitions of
  builder and entity agree in this way.
-/

namespace KeyedRows

open Sql

namespace Predicate

def isEquality : Predicate → Bool
  | compare _ .eq _ => true
  | _ => false

/-- A part of a condition beside the key: no conjunction and no equality. -/
def IsGuard (p : Predicate) : Prop := p.conjuncts = [p] ∧ p.isEquality = false

theorem eq_of_not_null {v : Value} (h : v.isNull = false) (column : String) :
    eq column v = compare column .eq v := by
  rw [eq, if_neg (by simp [h])]

theorem isGuard_any {parts : List Predicate} (h : ∀ p ∈ parts.flatMap disjuncts, p.IsGuard) :
    (any parts).IsGuard := by
  show (Junction.or.merge parts).IsGuard
  rw [Junction.merge_eq_wrap]
  exact Junction.wrap_of_cases (fun p hp => h p (hp ▸ List.mem_singleton_self p)) fun _ => ⟨rfl, rfl⟩

theorem isGuard_of_mem_disjuncts_differs {c : Column} {v : Value} {p : Predicate}
    (hp : p ∈ (differs c v).disjuncts) : p.IsGuard := by
  unfold differs at hp
  split at hp
  · rw [List.mem_singleton.1 hp]
    exact ⟨rfl, rfl⟩
  · have hp : p ∈ [isNull c.id, compare c.id .ne v] := hp
    rcases List.mem_pair.1 hp with rfl | rfl <;> exact ⟨rfl, rfl⟩

theorem isGuard_any_differs (targets : Assignments) :
    (any (targets.map fun (c, v) => differs c v)).IsGuard := by
  refine isGuard_any fun p hp => ?_
  obtain ⟨q, hq, hp⟩ := List.mem_flatMap.1 hp
  obtain ⟨⟨c, v⟩, _, rfl⟩ := List.mem_map.1 hq
  exact isGuard_of_mem_disjuncts_differs hp

end Predicate

/-! ## Key conditions -/

namespace Table

def keyEqualities (t : Table) (keys : List Value) : List Predicate :=
  (t.keyColumns.zip keys).map fun (column, v) => .compare column .eq v

theorem eq_of_mem_keyEqualities {t : Table} {keys : List Value} {p : Predicate}
    (hp : p ∈ t.keyEqualities keys) : p.conjuncts = [p] ∧ p.isEquality = true := by
  obtain ⟨⟨column, v⟩, _, rfl⟩ := List.mem_map.1 hp
  exact ⟨rfl, rfl⟩

theorem zipWith_eq (columns : List String) {keys : List Value} (h : ∀ v ∈ keys, v.isNull = false) :
    columns.zipWith Predicate.eq keys =
      (columns.zip keys).map fun (column, v) => Predicate.compare column .eq v := by
  induction columns generalizing keys with
  | nil => rfl
  | cons column columns ih =>
    cases keys with
    | nil => rfl
    | cons v keys =>
      rw [List.zipWith_cons_cons, List.zip_cons_cons, List.map_cons,
        Predicate.eq_of_not_null (h v (by simp)), ih fun w hw => h w (List.mem_cons_of_mem _ hw)]

theorem conjuncts_keyPredicate (t : Table) {keys : List Value} (h : ∀ v ∈ keys, v.isNull = false) :
    (t.keyPredicate keys).conjuncts = t.keyEqualities keys := by
  have hself : ∀ p ∈ t.keyEqualities keys, p.conjuncts = [p] := fun p hp => (eq_of_mem_keyEqualities hp).1
  refine Junction.and.parts_merge ?_ hself
  rw [zipWith_eq t.keyColumns h]
  exact Junction.and.flatMap_parts_eq_self hself

/-- What an update has beside its key: where only changes count, that some new value is not there
yet. -/
def updateGuards (ctx : Context) (targets : Assignments) : List Predicate :=
  if ctx.diffOnly then [.any (targets.map fun (c, v) => differs c v)] else []

theorem forall_mem_updateGuards {P : Predicate → Prop} {targets : Assignments} (ctx : Context)
    (h : P (.any (targets.map fun (c, v) => differs c v))) : ∀ p ∈ updateGuards ctx targets, P p := by
  unfold updateGuards
  split
  · exact List.forall_mem_singleton.2 h
  · exact List.forall_mem_nil _

theorem conjuncts_updateCondition_eq (t : Table) (ctx : Context) {keys : List Value}
    (h : ∀ v ∈ keys, v.isNull = false) (targets : Assignments) :
    (t.updateCondition ctx keys targets).conjuncts =
      t.keyEqualities keys ++ updateGuards ctx targets := by
  have hguards := forall_mem_updateGuards ctx (Predicate.isGuard_any_differs targets)
  refine Junction.and.parts_merge ?_ (List.forall_mem_append.2
    ⟨fun p hp => (eq_of_mem_keyEqualities hp).1, fun p hp => (hguards p hp).1⟩)
  have hself : (updateGuards ctx targets).flatMap Junction.and.parts = updateGuards ctx targets :=
    Junction.and.flatMap_parts_eq_self fun p hp => (hguards p hp).1
  show (t.keyPredicate keys).conjuncts ++ (updateGuards ctx targets).flatMap Junction.and.parts = _
  rw [hself, conjuncts_keyPredicate t h]

/-- The condition of an update has the equalities of the key and, where only changes count, a guard
beside them. -/
theorem conjuncts_updateCondition (t : Table) (ctx : Context) {keys : List Value}
    (h : ∀ v ∈ keys, v.isNull = false) (targets : Assignments) :
    ∃ guards : List Predicate, (∀ p ∈ guards, p.IsGuard) ∧ (ctx.diffOnly = false → guards = []) ∧
      (t.updateCondition ctx keys targets).conjuncts = t.keyEqualities keys ++ guards := by
  refine ⟨_, forall_mem_updateGuards ctx (Predicate.isGuard_any_differs targets), fun hfull => ?_,
    conjuncts_updateCondition_eq t ctx h targets⟩
  rw [updateGuards, hfull]
  rfl

end Table

/-! ## Conditions that bind -/

namespace Predicate

/-- Every equality in a rendered condition binds the storage form of its value. -/
theorem stored_of_mem_conjuncts {t : Table} {style : Style} {p : Predicate} {ps : List Piece}
    (h : p.pieces t style = .ok ps) {column : String} {v : Value}
    (hmem : compare column .eq v ∈ p.conjuncts) : ∃ cell, t.stored? column v = some cell := by
  have hpart : ∃ ps, (compare column .eq v).pieces t style = .ok ps := by
    cases p with
    | and parts =>
      rw [pieces] at h
      obtain ⟨pss, hparts, _⟩ := bind_eq_ok.1 h
      obtain ⟨_, _, ps, hps, _⟩ := exists_zip_of_mem (partPieces_eq_ok.1 hparts) hmem
      exact ⟨ps, hps⟩
    | _ => exact ⟨ps, by rwa [List.mem_singleton.1 hmem]⟩
  obtain ⟨qs, hqs⟩ := hpart
  obtain ⟨cell, hcell, _⟩ := pieces_compare_eq_ok.1 hqs
  exact ⟨cell, hcell⟩

end Predicate

/-! ## One full key -/

/-- The storage form, in a key column of the table, of the baseline value that an entity has in
another column. -/
def Table.baselineCell? (t : Table) (e : Entity) (column other : String) : Option Cell :=
  ((e.baselineField? other).bind Field.value?).bind (t.stored? column)

/-- The condition names one full key of the table: for every key column, one of its parts is the
equality of that column with the storage form of the baseline value in that column, and it has no
fewer equalities than the key has columns. -/
structure Predicate.AddressesKey (p : Predicate) (t : Table) (e : Entity) : Prop where
  column : ∀ column ∈ t.keyColumns, ∃ v cell, .compare column .eq v ∈ p.conjuncts ∧
    t.stored? column v = some cell ∧ t.baselineCell? e column column = some cell
  count : t.key.length ≤ (p.conjuncts.filter Predicate.isEquality).length

/-- The entity has no shorter key than the table, and every key column of the table stands against
one whose baseline value it stores alike. -/
structure KeysAgree (t : Table) (e : Entity) : Prop where
  length : t.key.length ≤ e.table.key.length
  column : ∀ column ∈ t.keyColumns, ∃ other, (column, other) ∈ t.keyColumns.zip e.table.keyColumns ∧
    t.baselineCell? e column column = t.baselineCell? e column other

/-- A key that starts with the columns of the table, in their order, agrees with it. -/
theorem KeysAgree.of_isPrefix {t : Table} {e : Entity} (h : t.keyColumns <+: e.table.keyColumns) :
    KeysAgree t e := by
  obtain ⟨others, hothers⟩ := h
  refine ⟨?_, fun column hcolumn => ⟨column, ?_, rfl⟩⟩
  · have hlength := congrArg List.length hothers
    simp only [List.length_append, Table.keyColumns, List.length_map] at hlength
    omega
  · rw [← hothers]
    have hzip : ∀ columns : List String, column ∈ columns →
        (column, column) ∈ columns.zip (columns ++ others) := by
      intro columns hmem
      induction columns with
      | nil => cases hmem
      | cons c columns ih =>
        rcases List.mem_cons.1 hmem with rfl | hmem
        · simp
        · simp [ih hmem]
    exact hzip _ hcolumn

namespace Entity

theorem baselineKey_eq_ok {e : Entity} {keys : List Value} (h : e.baselineKey = .ok keys) :
    List.Forall₂ (fun column v => (e.baselineField? column).bind Field.value? = some v)
      e.table.keyColumns keys := by
  refine (mapM_eq_ok.1 h).imp fun column v hv => ?_
  split at hv
  · next w hw => cases hv; exact hw
  · cases hv

theorem not_null_of_baselineKey {e : Entity} {keys : List Value} (h : e.baselineKey = .ok keys) :
    ∀ v ∈ keys, v.isNull = false := by
  intro v hv
  obtain ⟨column, _, hcolumn⟩ := exists_of_forall₂ (baselineKey_eq_ok h) hv
  obtain ⟨f, _, hf⟩ := Option.bind_eq_some_iff.1 hcolumn
  cases f with
  | unset => cases hf
  | set w => cases w <;> cases hf <;> rfl

end Entity

section
variable {t : Table} {style : Style} {e : Entity} {keys : List Value} {p : Predicate}
  {ps : List Piece} {guards : List Predicate}

theorem length_keyEqualities (hkeys : e.baselineKey = .ok keys) :
    (t.keyEqualities keys).length = min t.key.length e.table.key.length := by
  have hlength := (Entity.baselineKey_eq_ok hkeys).length_eq
  simp only [Table.keyColumns, List.length_map] at hlength
  rw [Table.keyEqualities, List.length_map, List.length_zip, Table.keyColumns, List.length_map,
    hlength]

theorem filter_isEquality (hguards : ∀ q ∈ guards, q.IsGuard) :
    (t.keyEqualities keys ++ guards).filter Predicate.isEquality = t.keyEqualities keys := by
  rw [List.filter_append,
    List.filter_eq_self.2 fun q hq => (Table.eq_of_mem_keyEqualities hq).2,
    List.filter_eq_nil_iff.2 fun q hq => by simp [(hguards q hq).2], List.append_nil]

theorem mem_keyEqualities (hguards : ∀ q ∈ guards, q.IsGuard) {column : String} {v : Value} :
    .compare column .eq v ∈ t.keyEqualities keys ++ guards ↔ (column, v) ∈ t.keyColumns.zip keys := by
  rw [List.mem_append]
  constructor
  · rintro (h | h)
    · obtain ⟨⟨c, w⟩, hmem, heq⟩ := List.mem_map.1 h
      cases heq
      exact hmem
    · exact absurd (hguards _ h).2 (by simp [Predicate.isEquality])
  · exact fun h => .inl (List.mem_map.2 ⟨_, h, rfl⟩)

/-- The condition of a write addresses a full key exactly if the definitions agree. -/
theorem addressesKey_iff (hkeys : e.baselineKey = .ok keys) (hp : p.pieces t style = .ok ps)
    (hguards : ∀ q ∈ guards, q.IsGuard) (hparts : p.conjuncts = t.keyEqualities keys ++ guards) :
    p.AddressesKey t e ↔ KeysAgree t e := by
  have hbase := Entity.baselineKey_eq_ok hkeys
  have hcount : (p.conjuncts.filter Predicate.isEquality).length =
      min t.key.length e.table.key.length := by
    rw [hparts, filter_isEquality hguards, length_keyEqualities hkeys]
  constructor
  · rintro ⟨hcolumn, hlength⟩
    refine ⟨by omega, fun column hmem => ?_⟩
    obtain ⟨v, cell, hv, hcell, hown⟩ := hcolumn column hmem
    rw [hparts, mem_keyEqualities hguards] at hv
    obtain ⟨other, hother, hbaseline⟩ := exists_zip_of_forall₂ hbase hv
    exact ⟨other, hother, by rw [hown, Table.baselineCell?, hbaseline, Option.bind_some, hcell]⟩
  · rintro ⟨hlength, hcolumn⟩
    refine ⟨fun column hmem => ?_, by omega⟩
    obtain ⟨other, hother, hsame⟩ := hcolumn column hmem
    obtain ⟨v, hv, hbaseline⟩ := exists_zip_of_forall₂ hbase.flip hother
    have hin : .compare column .eq v ∈ p.conjuncts := by
      rw [hparts, mem_keyEqualities hguards]
      exact hv
    obtain ⟨cell, hcell⟩ := Predicate.stored_of_mem_conjuncts hp hin
    have hbaseline : (e.baselineField? other).bind Field.value? = some v := hbaseline
    exact ⟨v, cell, hin, hcell, by rw [hsame, Table.baselineCell?, hbaseline, Option.bind_some, hcell]⟩

theorem key_eq_nil_of_true (hkey : t.hasKey = true) (hkeys : e.baselineKey = .ok keys)
    (hparts : p.conjuncts = t.keyEqualities keys ++ guards) (h : ∀ view, p.eval view = .yes) :
    e.table.key = [] := by
  have hlength := length_keyEqualities (t := t) hkeys
  cases heq : t.keyEqualities keys with
  | nil =>
    have hpos : t.key.length ≠ 0 := by simpa [Table.hasKey] using hkey
    rw [heq, List.length_nil] at hlength
    exact List.length_eq_zero_iff.1 (by omega)
  | cons q qs =>
    have hq : q ∈ t.keyEqualities keys := by simp [heq]
    obtain ⟨⟨column, v⟩, _, rfl⟩ := List.mem_map.1 hq
    -- a row of nulls, on which every comparison is unknown
    let nulls : View := ⟨fun _ => true, fun _ _ => none, fun _ _ => .unknown⟩
    have hall := h nulls
    rw [← Predicate.all_eval_conjuncts, hparts, Truth.all_eq_yes] at hall
    have hunknown := hall ((Predicate.compare column .eq v).eval nulls)
      (List.mem_map_of_mem (List.mem_append_left _ hq))
    cases hunknown

theorem true_of_key_eq_nil (hkeys : e.baselineKey = .ok keys)
    (hparts : p.conjuncts = t.keyEqualities keys) (hkey : e.table.key = []) (view : View) :
    p.eval view = .yes := by
  have hlength := length_keyEqualities (t := t) hkeys
  rw [hkey, List.length_nil, Nat.min_zero, List.length_eq_zero_iff] at hlength
  rw [← Predicate.all_eval_conjuncts, hparts, hlength]
  rfl

end

/-! ## Statements -/

/-- The statement consists of `head` and a `WHERE` clause with the condition. -/
def Statement.EndsInWhere (s : Statement) (t : Table) (style : Style) (kind : StatementKind)
    (head : List Piece) (p : Predicate) : Prop :=
  ∃ ps, p.pieces t style = .ok ps ∧ s = .ofPieces style kind (head ++ .text " WHERE " :: ps)

namespace Table

variable {t : Table} {style : Style} {e : Entity}

theorem requireKey_eq_ok {u : Unit} (h : t.requireKey = .ok u) : t.hasKey = true := by
  unfold requireKey at h
  split at h
  · next hkey => exact hkey
  · cases h

theorem delete_eq_ok {s : Statement} (h : t.delete style e = .ok s) :
    t.hasKey = true ∧ ∃ keys, e.baselineKey = .ok keys ∧
      s.EndsInWhere t style .delete [.text "DELETE FROM ", .name t.name] (t.keyPredicate keys) := by
  obtain ⟨_, _, h⟩ := KeyedRows.bind_eq_ok.1 h
  obtain ⟨_, hkey, h⟩ := KeyedRows.bind_eq_ok.1 h
  obtain ⟨keys, hkeys, h⟩ := KeyedRows.bind_eq_ok.1 h
  obtain ⟨ps, hps, h⟩ := KeyedRows.bind_eq_ok.1 h
  cases h
  exact ⟨requireKey_eq_ok hkey, keys, hkeys, ps, hps, rfl⟩

/-- What an accepted update is: nothing where it has nothing to write, and else a statement. -/
theorem update_cases {ctx : Context} {statement : Option Statement}
    (h : t.update style e ctx = .ok statement) :
    t.hasKey = true ∧ ∃ keys, e.baselineKey = .ok keys ∧
      ((e.updates t ctx = [] ∧ statement = none) ∨
        (e.updates t ctx ≠ [] ∧ ∃ s set, statement = some s ∧
          t.setClause (e.updates t ctx ++ e.updateStamps ctx) = .ok set ∧
          s.EndsInWhere t style .update ([.text "UPDATE ", .name t.name, .text " SET "] ++ set)
            (t.updateCondition ctx keys (e.updates t ctx)))) := by
  obtain ⟨_, _, h⟩ := KeyedRows.bind_eq_ok.1 h
  obtain ⟨_, hkey, h⟩ := KeyedRows.bind_eq_ok.1 h
  obtain ⟨keys, hkeys, h⟩ := KeyedRows.bind_eq_ok.1 h
  refine ⟨requireKey_eq_ok hkey, keys, hkeys, ?_⟩
  dsimp only at h
  split at h
  · next hempty =>
    cases h
    exact .inl ⟨List.isEmpty_iff.1 hempty, rfl⟩
  · next hempty =>
    obtain ⟨set, hset, h⟩ := KeyedRows.bind_eq_ok.1 h
    obtain ⟨ps, hps, h⟩ := KeyedRows.bind_eq_ok.1 h
    cases h
    exact .inr ⟨fun hnil => hempty (List.isEmpty_iff.2 hnil), _, set, rfl, hset, ps, hps, rfl⟩

theorem update_eq_ok {ctx : Context} {s : Statement} (h : t.update style e ctx = .ok (some s)) :
    t.hasKey = true ∧ ∃ keys set, e.baselineKey = .ok keys ∧
      t.setClause (e.updates t ctx ++ e.updateStamps ctx) = .ok set ∧
      s.EndsInWhere t style .update ([.text "UPDATE ", .name t.name, .text " SET "] ++ set)
        (t.updateCondition ctx keys (e.updates t ctx)) := by
  obtain ⟨hkey, keys, hkeys, ⟨_, hnone⟩ | ⟨_, _, set, hsome, hset, hwhere⟩⟩ := update_cases h
  · cases hnone
  · cases hsome
    exact ⟨hkey, keys, set, hkeys, hset, hwhere⟩

theorem updates_of_update_eq_none {ctx : Context} (h : t.update style e ctx = .ok none) :
    e.updates t ctx = [] := by
  obtain ⟨_, _, _, ⟨hnil, _⟩ | ⟨_, _, _, hsome, _⟩⟩ := update_cases h
  · exact hnil
  · cases hsome

theorem updates_ne_nil_of_update {ctx : Context} {s : Statement}
    (h : t.update style e ctx = .ok (some s)) : e.updates t ctx ≠ [] := by
  obtain ⟨_, _, _, ⟨_, hnone⟩ | ⟨hne, _⟩⟩ := update_cases h
  · cases hnone
  · exact hne

/-- **Which writes address one full key.** The condition of a delete, or of an update, has an
equality for every key column with the baseline value in that column exactly if the key of the
entity's own definition agrees with the key of the table, as it does where it starts with the same
columns. A delete, or an update that is not limited to changes, is true of every row exactly if the
entity's own definition has no key. -/
theorem write_addresses_iff (t : Table) (style : Style) (e : Entity) :
    (∀ s, t.delete style e = .ok s → ∃ p : Predicate,
      s.EndsInWhere t style .delete [.text "DELETE FROM ", .name t.name] p ∧
      (p.AddressesKey t e ↔ KeysAgree t e) ∧
      ((∀ view, p.eval view = .yes) ↔ e.table.key = [])) ∧
    (∀ ctx s, t.update style e ctx = .ok (some s) → ∃ (p : Predicate) (set : List Piece),
      t.setClause (e.updates t ctx ++ e.updateStamps ctx) = .ok set ∧
      s.EndsInWhere t style .update ([.text "UPDATE ", .name t.name, .text " SET "] ++ set) p ∧
      (p.AddressesKey t e ↔ KeysAgree t e) ∧
      ((∀ view, p.eval view = .yes) → e.table.key = []) ∧
      (ctx.diffOnly = false → e.table.key = [] → ∀ view, p.eval view = .yes)) ∧
    (t.keyColumns <+: e.table.keyColumns → KeysAgree t e) := by
  refine ⟨fun s h => ?_, fun ctx s h => ?_, KeysAgree.of_isPrefix⟩
  · obtain ⟨hkey, keys, hkeys, ps, hps, hs⟩ := delete_eq_ok h
    have hparts := conjuncts_keyPredicate t (Entity.not_null_of_baselineKey hkeys)
    have hguarded : (t.keyPredicate keys).conjuncts = t.keyEqualities keys ++ [] := by
      rw [hparts, List.append_nil]
    exact ⟨_, ⟨ps, hps, hs⟩, addressesKey_iff hkeys hps (by simp) hguarded,
      key_eq_nil_of_true hkey hkeys hguarded, true_of_key_eq_nil hkeys hparts⟩
  · obtain ⟨hkey, keys, set, hkeys, hset, ps, hps, hs⟩ := update_eq_ok h
    have hnull := Entity.not_null_of_baselineKey hkeys
    obtain ⟨guards, hguards, hfull, hparts⟩ :=
      conjuncts_updateCondition t ctx hnull (e.updates t ctx)
    refine ⟨_, set, hset, ⟨ps, hps, hs⟩, addressesKey_iff hkeys hps hguards hparts,
      key_eq_nil_of_true hkey hkeys hparts, fun hdiff => true_of_key_eq_nil (t := t) hkeys ?_⟩
    rw [hparts, hfull hdiff, List.append_nil]

section
private def pairTable (key : Key) : Table :=
  { name := "t", columns := [⟨"a", .integer, none, none⟩, ⟨"b", .string, none, none⟩], key := key }

private def pairEntity (key : Key) (a b : Value) : Entity where
  table := pairTable key
  fields := [.set a, .set b]
  baseline := some [.set a, .set b]
  fields_length := rfl
  baseline_length := by simp [pairTable]

/-- With one definition, a delete and an update address the key of the entity. -/
theorem write_addresses_iff_pair :
    let key : Key := [⟨"b", .descending⟩, ⟨"a", .ascending⟩]
    let t := pairTable key
    let e := pairEntity key (.integer 1) (.string "x")
    ∃ s, t.delete {} e = .ok s ∧ ∃ p : Predicate,
      s.EndsInWhere t {} .delete [.text "DELETE FROM ", .name "t"] p ∧ p.AddressesKey t e ∧
        ¬ ∀ view, p.eval view = .yes := by
  intro key t e
  obtain ⟨s, hs⟩ : ∃ s, t.delete {} e = .ok s := ⟨_, rfl⟩
  obtain ⟨hdelete, _, hsame⟩ := write_addresses_iff t {} e
  obtain ⟨p, hwhere, hkey, htrue⟩ := hdelete s hs
  refine ⟨s, hs, p, hwhere, hkey.2 (hsame (List.prefix_refl _)), fun h => ?_⟩
  have hnil := htrue.1 h
  cases hnil

/-- An entity whose own definition of the table has no key is deleted together with every other
row. -/
theorem delete_keyless :
    let t := pairTable [⟨"a", .ascending⟩]
    let e := pairEntity [] (.integer 1) (.string "x")
    t.hasKey = true ∧ e.baselineKey = .ok [] ∧
      t.delete {} e = .ok ⟨.delete, "DELETE FROM \"t\" WHERE 1 = 1", []⟩ ∧
      ¬ (t.keyPredicate []).AddressesKey t e ∧ ∀ view, (t.keyPredicate []).eval view = .yes := by
  refine ⟨rfl, rfl, rfl, fun h => ?_, fun view => rfl⟩
  have hcount := h.count
  simp [pairTable, Table.keyPredicate, Table.keyColumns, Predicate.all, Predicate.conjuncts] at hcount

end
end Table
end KeyedRows
