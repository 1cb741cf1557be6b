import KeyedRows.Proofs.Session.Run

/-!
# Edits and the row that a write addresses

* `Edit.applyAll_keeps` : a run of edits keeps the table and the baseline;
* `Table.keyCells?` : the cells that the key columns of a row are compared with;
* `Predicate.EqualityFree` : a condition that compares no column for equality;
* `pieces_of_conjuncts` : a condition with the equalities of a key is written as these and, beside
  them, as parts without equalities;
* `edits_keep_address` : no run of edits changes the row that a delete or update addresses.
-/

namespace KeyedRows

open Sql

def Edit.applyAll (e : Entity) (edits : List Edit) : Entity := edits.foldl (fun e edit => edit.apply e) e

theorem Edit.applyAll_keeps (edits : List Edit) (e : Entity) :
    (applyAll e edits).table = e.table ∧ (applyAll e edits).baseline = e.baseline := by
  induction edits generalizing e with
  | nil => exact ⟨rfl, rfl⟩
  | cons edit edits ih =>
    obtain ⟨htable, hbaseline⟩ := edit.apply_baseline e
    obtain ⟨ihtable, ihbaseline⟩ := ih (edit.apply e)
    exact ⟨ihtable.trans htable, ihbaseline.trans hbaseline⟩

namespace Entity

variable {e e' : Entity}

theorem baselineKey_congr (htable : e.table = e'.table) (hbaseline : e.baseline = e'.baseline) :
    e.baselineKey = e'.baselineKey := by
  have hfield : e.baselineField? = e'.baselineField? := by
    funext column
    rw [baselineField?, baselineField?, htable, hbaseline]
  rw [baselineKey, baselineKey, hfield, htable]

theorem delete_congr (htable : e.table = e'.table) (hbaseline : e.baseline = e'.baseline) (t : Table)
    (style : Style) : t.delete style e = t.delete style e' := by
  rw [Table.delete, Table.delete, Table.checkEntity, Table.checkEntity, htable,
    baselineKey_congr htable hbaseline]

end Entity

/-! ## Conditions without equalities -/

namespace Predicate

mutual

/-- No column is compared for equality. -/
def EqualityFree : Predicate → Prop
  | compare _ op _ => op ≠ .eq
  | isNull _ | isNotNull _ | isIn _ _ | between _ _ _ | like _ _ => True
  | and parts | or parts => EqualityFreeParts parts

def EqualityFreeParts : List Predicate → Prop
  | [] => True
  | p :: parts => p.EqualityFree ∧ EqualityFreeParts parts

end

theorem equalityFreeParts_iff {parts : List Predicate} :
    EqualityFreeParts parts ↔ ∀ p ∈ parts, p.EqualityFree := by
  induction parts with
  | nil => simp [EqualityFreeParts]
  | cons p parts ih => rw [EqualityFreeParts, ih, List.forall_mem_cons]

theorem equalityFree_any {parts : List Predicate} (h : ∀ p ∈ parts, p.EqualityFree) :
    (any parts).EqualityFree :=
  Junction.or.merge_of_parts (fun _ => equalityFreeParts_iff) h

theorem equalityFree_differs (c : Column) (v : Value) : (differs c v).EqualityFree := by
  unfold differs
  split
  · trivial
  · refine equalityFree_any fun p hp => ?_
    rcases List.mem_pair.1 hp with rfl | rfl
    · trivial
    · exact fun h => by cases h

variable {t : Table} {style : Style}

theorem not_mem_intersperse {piece : Piece} {word : String} (hword : .text word ≠ piece)
    {items : List (List Piece)} (h : ∀ ps ∈ items, piece ∉ ps) :
    piece ∉ (items.intersperse [.text word]).flatten := by
  induction items with
  | nil => simp
  | cons ps items ih =>
    have hps := h ps (by simp)
    have ih := ih fun qs hqs => h qs (List.mem_cons_of_mem _ hqs)
    cases items with
    | nil => simpa using hps
    | cons qs items =>
      rw [List.intersperse_cons_cons, List.flatten_cons, List.flatten_cons]
      simp only [List.mem_append, List.mem_singleton, not_or]
      exact ⟨hps, hword.symm, ih⟩

theorem not_mem_grouped {p : Predicate} {ps : List Piece} (h : .text " = " ∉ ps) :
    .text " = " ∉ grouped p ps := by
  unfold grouped
  split
  · simpa using h
  · exact h

theorem not_mem_joined {word none : String} (hword : word ≠ " = ") (hnone : none ≠ " = ")
    {items : List (List Piece)} (h : ∀ ps ∈ items, .text " = " ∉ ps) :
    .text " = " ∉ joined word none items := by
  unfold joined
  split
  · simpa using hnone.symm
  · exact not_mem_intersperse (by simpa using hword) h

theorem not_mem_pieces {p : Predicate} {ps : List Piece} (hfree : p.EqualityFree)
    (h : p.pieces t style = .ok ps) : .text " = " ∉ ps := by
  induction h using pieces_induction with
  | compare column op v =>
    cases op <;> first | exact absurd rfl hfree | (simp [Comparison.symbol])
  | isNull column => simp
  | isNotNull column => simp
  | isIn column values cs =>
    have hlist : .text " = " ∉ Piece.commaList (cs.map fun cell => [Piece.binding cell]) :=
      not_mem_intersperse (by simp) (by simp)
    simpa using hlist
  | between column low high => simp
  | like column v =>
    have hescape : .text " = " ∉ escapeClause style := by
      unfold escapeClause
      split <;> simp
    simpa using hescape
  | and parts pss _ ih =>
    refine not_mem_joined (by decide) (by decide) fun qs hqs => ?_
    obtain ⟨p, hp, ps, _, hfreeOf, rfl⟩ := exists_of_forall₂ ih hqs
    exact not_mem_grouped (hfreeOf (equalityFreeParts_iff.1 hfree p hp))
  | or parts pss _ ih =>
    refine not_mem_joined (by decide) (by decide) fun qs hqs => ?_
    obtain ⟨p, hp, ps, _, hfreeOf, rfl⟩ := exists_of_forall₂ ih hqs
    exact not_mem_grouped (hfreeOf (equalityFreeParts_iff.1 hfree p hp))

/-! ## Parts of a conjunction -/

def PartPieces (t : Table) (style : Style) (p : Predicate) (qs : List Piece) : Prop :=
  ∃ ps, p.pieces t style = .ok ps ∧ (qs = ps ∨ qs = grouped p ps)

/-- A condition is its parts, joined. A single part needs no parentheses. -/
theorem pieces_joined {p : Predicate} {ps : List Piece} (h : p.pieces t style = .ok ps) :
    ∃ pss, List.Forall₂ (PartPieces t style) p.conjuncts pss ∧ ps = joined " AND " "1 = 1" pss := by
  cases p with
  | and parts =>
    rw [pieces] at h
    obtain ⟨pss, hparts, h⟩ := bind_eq_ok.1 h
    cases h
    refine ⟨pss, (partPieces_eq_ok.1 hparts).imp fun q qs hq => ?_, rfl⟩
    obtain ⟨ps, hps, rfl⟩ := hq
    exact ⟨ps, hps, .inr rfl⟩
  | _ => exact ⟨[ps], .cons ⟨ps, h, .inl rfl⟩ .nil, by simp [joined]⟩

theorem not_mem_of_partPieces {p : Predicate} {qs : List Piece} (hfree : p.EqualityFree)
    (h : PartPieces t style p qs) : .text " = " ∉ qs := by
  obtain ⟨ps, hps, rfl | rfl⟩ := h
  · exact not_mem_pieces hfree hps
  · exact not_mem_grouped (not_mem_pieces hfree hps)

end Predicate

/-- Cells that columns are compared with, as SQL writes it. -/
def equalityPieces (cells : List (String × Cell)) : List (List Piece) :=
  cells.map fun p => [.name p.1, .text " = ", .binding p.2]

/-- The cells of some values, each in the storage form of its column. -/
def Table.storedAll? (t : Table) (values : List (String × Value)) : Option (List (String × Cell)) :=
  values.mapM fun p => (t.stored? p.1 p.2).map fun cell => (p.1, cell)

/-- The cells that a write of an entity compares the key columns of a table with. -/
def Table.keyCells? (t : Table) (e : Entity) : Option (List (String × Cell)) :=
  e.baselineKey.toOption.bind fun keys => t.storedAll? (t.keyColumns.zip keys)

namespace Table

variable {t : Table} {style : Style}

theorem storedAll?_of_equalities {pairs : List (String × Value)} {pss : List (List Piece)}
    (h : List.Forall₂ (Predicate.PartPieces t style)
      (pairs.map fun p => Predicate.compare p.1 .eq p.2) pss) :
    ∃ cells, t.storedAll? pairs = some cells ∧ pss = equalityPieces cells := by
  rw [List.forall₂_map_left_iff] at h
  induction h with
  | nil => exact ⟨[], rfl, rfl⟩
  | @cons p qs pairs pss hp _ ih =>
    obtain ⟨cells, hcells, rfl⟩ := ih
    obtain ⟨ps, hps, hqs⟩ := hp
    obtain ⟨cell, hcell, rfl⟩ := Predicate.pieces_compare_eq_ok.1 hps
    have hpieces : qs = [.name p.1, .text " = ", .binding cell] := by
      rcases hqs with rfl | rfl <;> rfl
    refine ⟨(p.1, cell) :: cells, ?_, by rw [hpieces]; rfl⟩
    rw [storedAll?] at hcells ⊢
    rw [List.mapM_cons, hcell, hcells]
    rfl

/-- A condition that joins the equalities of a key with parts that have none. -/
theorem pieces_of_conjuncts {p : Predicate} {ps : List Piece} {keys : List Value}
    {guards : List Predicate} (h : p.pieces t style = .ok ps)
    (hparts : p.conjuncts = t.keyEqualities keys ++ guards) (hfree : ∀ q ∈ guards, q.EqualityFree) :
    ∃ cells qss, t.storedAll? (t.keyColumns.zip keys) = some cells ∧
      ps = Predicate.joined " AND " "1 = 1" (equalityPieces cells ++ qss) ∧
      qss.length = guards.length ∧ ∀ qs ∈ qss, .text " = " ∉ qs := by
  obtain ⟨pss, hpss, rfl⟩ := Predicate.pieces_joined h
  rw [hparts] at hpss
  obtain ⟨heq, hguards⟩ : List.Forall₂ (Predicate.PartPieces t style) (t.keyEqualities keys)
      (pss.take (t.keyEqualities keys).length) ∧
      List.Forall₂ (Predicate.PartPieces t style) guards (pss.drop (t.keyEqualities keys).length) :=
    ⟨(List.forall₂_take_append _ _ _ hpss.flip).flip, (List.forall₂_drop_append _ _ _ hpss.flip).flip⟩
  obtain ⟨cells, hcells, htake⟩ := storedAll?_of_equalities heq
  refine ⟨cells, _, hcells, ?_, hguards.length_eq.symm, fun qs hqs => ?_⟩
  · rw [← htake, List.take_append_drop]
  · obtain ⟨q, hq, hpart⟩ := exists_of_forall₂ hguards hqs
    exact Predicate.not_mem_of_partPieces (hfree q hq) hpart

theorem keyCells?_eq {e : Entity} {keys : List Value} (h : e.baselineKey = .ok keys) :
    t.keyCells? e = t.storedAll? (t.keyColumns.zip keys) := by
  rw [keyCells?, h]
  rfl

/-- **Edits never redirect a write.** After any edits, successful or not, a delete of the entity is
the same statement as before, or fails with the same error. Its condition, and the condition of every
update that has a statement, compares the key columns with cells that the baseline alone determines;
beside them an update has at most a guard, without equalities, and none if it is not limited to
changes. -/
theorem edits_keep_address (t : Table) (style : Style) (e : Entity) (edits : List Edit) :
    t.delete style (Edit.applyAll e edits) = t.delete style e ∧
    (∀ s, t.delete style (Edit.applyAll e edits) = .ok s → ∃ cells, t.keyCells? e = some cells ∧
      s = .ofPieces style .delete ([.text "DELETE FROM ", .name t.name] ++ .text " WHERE " ::
        Predicate.joined " AND " "1 = 1" (equalityPieces cells))) ∧
    ∀ ctx s, t.update style (Edit.applyAll e edits) ctx = .ok (some s) →
      ∃ cells set guards, t.keyCells? e = some cells ∧
        t.setClause ((Edit.applyAll e edits).updates t ctx ++ (Edit.applyAll e edits).updateStamps ctx) =
          .ok set ∧
        s = .ofPieces style .update ([.text "UPDATE ", .name t.name, .text " SET "] ++ set ++
          .text " WHERE " :: Predicate.joined " AND " "1 = 1" (equalityPieces cells ++ guards)) ∧
        (∀ guard ∈ guards, .text " = " ∉ guard) ∧ (ctx.diffOnly = false → guards = []) := by
  obtain ⟨htable, hbaseline⟩ := Edit.applyAll_keeps edits e
  have hdelete := Entity.delete_congr htable hbaseline t style
  refine ⟨hdelete, fun s hs => ?_, fun ctx s hs => ?_⟩
  · rw [hdelete] at hs
    obtain ⟨_, keys, hkeys, ps, hps, rfl⟩ := delete_eq_ok hs
    have hparts : (t.keyPredicate keys).conjuncts = t.keyEqualities keys ++ [] := by
      rw [conjuncts_keyPredicate t (Entity.not_null_of_baselineKey hkeys), List.append_nil]
    obtain ⟨cells, qss, hcells, rfl, hlength, _⟩ := pieces_of_conjuncts hps hparts (by simp)
    rw [List.length_eq_zero_iff.1 hlength, List.append_nil]
    exact ⟨cells, by rw [keyCells?_eq hkeys, hcells], rfl⟩
  · obtain ⟨_, keys, set, hkeys, hset, ps, hps, rfl⟩ := update_eq_ok hs
    have hnull := Entity.not_null_of_baselineKey hkeys
    have hparts := conjuncts_updateCondition_eq t ctx hnull ((Edit.applyAll e edits).updates t ctx)
    have hguards : ∀ p ∈ updateGuards ctx ((Edit.applyAll e edits).updates t ctx), p.EqualityFree := by
      refine forall_mem_updateGuards ctx (Predicate.equalityFree_any fun p hp => ?_)
      obtain ⟨q, _, rfl⟩ := List.mem_map.1 hp
      exact Predicate.equalityFree_differs q.1 q.2
    obtain ⟨cells, qss, hcells, rfl, hlength, hfree⟩ := pieces_of_conjuncts hps hparts hguards
    rw [Entity.baselineKey_congr htable hbaseline] at hkeys
    refine ⟨cells, set, qss, by rw [keyCells?_eq hkeys, hcells], hset, rfl, hfree, fun hfull => ?_⟩
    rw [updateGuards, hfull] at hlength
    exact List.length_eq_zero_iff.1 hlength

section
private def seatTable : Table :=
  { name := "seats", columns := [⟨"id", .integer, none, none⟩, ⟨"row", .integer, none, none⟩],
    key := [⟨"id", .ascending⟩] }

private def seat : Entity where
  table := seatTable
  fields := [.set (.integer 1), .set (.integer 4)]
  baseline := some [.set (.integer 1), .set (.integer 4)]
  fields_length := rfl
  baseline_length := by simp [seatTable]

/-- The key is edited, and two edits fail; the row with the old key is addressed all the same. -/
theorem edits_keep_address_seat :
    let ctx : Context := ⟨⟨⟨2024, 2, 29, by decide⟩, .midnight⟩, "ann", "till", false, true⟩
    let edits : List Edit := [.set "id" (.integer 9), .setNull "nowhere", .set "row" (.string "z"),
      .refresh, .set "row" (.string "7")]
    let after := Edit.applyAll seat edits
    (∃ s, seatTable.delete {} after = .ok s ∧ seatTable.delete {} seat = .ok s ∧
      s.bindings = [.integer 1]) ∧
    ∃ s set guard, seatTable.update {} after ctx = .ok (some s) ∧
      s = .ofPieces {} .update ([.text "UPDATE ", .name "seats", .text " SET "] ++ set ++
        .text " WHERE " :: Predicate.joined " AND " "1 = 1"
          (equalityPieces [("id", .integer 1)] ++ guard)) ∧
      ∀ qs ∈ guard, .text " = " ∉ qs := by
  intro ctx edits after
  obtain ⟨hsame, hdelete, hupdate⟩ := edits_keep_address seatTable {} seat edits
  obtain ⟨s, hs⟩ : ∃ s, seatTable.delete {} after = .ok s := ⟨_, rfl⟩
  obtain ⟨cells, hcells, rfl⟩ := hdelete s hs
  cases hcells
  obtain ⟨u, hu⟩ : ∃ u, seatTable.update {} after ctx = .ok (some u) := ⟨_, rfl⟩
  obtain ⟨cells, set, guard, hcells, _, rfl, hguard, _⟩ := hupdate ctx u hu
  cases hcells
  exact ⟨⟨_, hs, hsame ▸ hs, rfl⟩, _, set, guard, hu, rfl, hguard⟩

end
end Table
end KeyedRows
