import KeyedRows.Proofs.Loading
import KeyedRows.Proofs.Session.Refresh

/-!
# The precision of loaded values

* `ColumnType.Keeps` : the storage form of a column keeps all of a value;
* `coerce_eq_self_iff` : a value of a column's kind is its own coercion exactly if the form keeps it;
* `Entity.exists_load_of_ofRow` : the values of a loaded entity come from the cells of its row;
* `loaded_stable_iff` : so a loaded value is its own coercion, and a loaded entity is as a refresh
  leaves it, exactly if no time is finer than its column and no such year is below zero;
* `load_finerThanColumn` : texts that load as values that their columns do not keep.

The reader takes nine digits of a fraction whatever the column, and a sign before a year that stands
after a `T`; the writer cuts the fraction and the reader mistakes the sign.
-/

namespace KeyedRows

namespace ColumnType

/-- The nanoseconds between two times that the storage form of a column tells apart. -/
def resolution : ColumnType → Nat
  | dateTime => 1000000000
  | timestamp => 1000
  | _ => 1

/-- The storage form of the column keeps all of the value: a time is no finer than the column, and its
year not below zero. -/
def Keeps (type : ColumnType) (v : Value) : Prop :=
  ∀ t, v.asDateTime? = some t → type.resolution ∣ t.time.nano ∧ 0 ≤ t.date.year

variable {type : ColumnType} {v : Value}

theorem keeps_of_asDateTime? (h : v.asDateTime? = none) : type.Keeps v := by
  intro t ht
  rw [h] at ht
  cases ht

theorem cut_eq_some_iff {t : DateTime} (hlast : t.time.LeapsLast) {n : Nat} (hn : n < 1000000000) :
    (if 0 ≤ t.date.year then some (⟨t.date, t.time.atNano n hn⟩ : DateTime) else none) = some t ↔
      n = t.time.clockNano ∧ 0 ≤ t.date.year := by
  rw [← and_iff_left (a := n = t.time.clockNano) hlast, ← Time.atNano_eq_self hn]
  split
  · next hy =>
    rw [Option.some.injEq]
    exact ⟨fun h => ⟨congrArg DateTime.time h, hy⟩, fun h => by rw [h.1]⟩
  · next hy => simp [hy]

theorem keeps_iff_of_asDateTime? {t : DateTime} (h : v.asDateTime? = some t) :
    type.Keeps v ↔ type.resolution ∣ t.time.nano ∧ 0 ≤ t.date.year := by
  simp [Keeps, h]

/-- **What a column gives back it keeps, or cuts.** A value of the column's kind is its own coercion
exactly if the storage form keeps all of it. -/
theorem coerce_eq_self_iff (h : type.Kind v) : type.coerce v = .ok v ↔ type.Keeps v := by
  cases type with
  | integer =>
    obtain ⟨i, rfl⟩ := h
    exact iff_of_true rfl (keeps_of_asDateTime? rfl)
  | string =>
    obtain ⟨s, rfl⟩ := h
    exact iff_of_true rfl (keeps_of_asDateTime? rfl)
  | boolean =>
    obtain ⟨b, rfl⟩ := h
    exact iff_of_true (by cases b <;> rfl) (keeps_of_asDateTime? rfl)
  | date =>
    obtain ⟨d, hy, rfl⟩ := h
    have hcell : date.store? (.date d) = some (.text d.slashed) := rfl
    refine iff_of_true ((coerce_eq_ok_of_store? hcell).2 ?_) (keeps_of_asDateTime? rfl)
    rw [load?, readDate?_slashed, if_pos hy, Option.map_some]
  | dateTime =>
    obtain ⟨t, hlast, rfl⟩ := h
    have hcell : dateTime.store? (.dateTime t) = some (.text t.toSeconds) := rfl
    have hwhole : 0 = t.time.clockNano ↔ dateTime.resolution ∣ t.time.nano := by
      rw [resolution, Time.clockNano]
      omega
    rw [coerce_eq_ok_of_store? hcell, keeps_iff_of_asDateTime? rfl, ← hwhole,
      ← cut_eq_some_iff hlast (by decide), ← readDateTime?_toSeconds, load?]
    simp
  | timestamp =>
    obtain ⟨t, hlast, rfl⟩ := h
    have hcell : timestamp.store? (.timestamp t) = some (.text t.toMicros) := rfl
    have hwhole : t.time.clockNano / 1000 * 1000 = t.time.clockNano ↔
        timestamp.resolution ∣ t.time.nano := by
      rw [resolution, Time.clockNano]
      omega
    rw [coerce_eq_ok_of_store? hcell, keeps_iff_of_asDateTime? rfl, ← hwhole,
      ← cut_eq_some_iff hlast (nano_cut_lt t.time), ← readDateTime?_toMicros, load?]
    simp
  | decimal =>
    obtain ⟨d, hscale, rfl⟩ := h
    have hcell : decimal.store? (.decimal d) = some (.text (toString d)) := rfl
    refine iff_of_true ((coerce_eq_ok_of_store? hcell).2 ?_) (keeps_of_asDateTime? rfl)
    rw [load?, Decimal.read?_toString, if_pos hscale, Option.map_some]

theorem coerce_loaded_iff {cell : Cell} (h : type.load cell = .ok v) :
    type.coerce v = .ok v ↔ type.Keeps v := by
  by_cases hv : v = .null
  · subst hv
    have hnull : type.coerce .null = .ok .null :=
      (coerce_eq_ok_of_store? (store?_null type)).2 (load?_null type)
    exact iff_of_true hnull (keeps_of_asDateTime? rfl)
  · exact coerce_eq_self_iff (kind_of_load? (load_eq_ok.1 h) hv)

end ColumnType

/-! ## Loaded entities -/

theorem Entity.exists_load_of_ofRow {t : Table} {row : Row} {e : Entity} (h : ofRow t row = .ok e)
    {c : Column} {v : Value} (hmem : (c, .set v) ∈ e.states) : ∃ cell, c.type.load cell = .ok v := by
  obtain ⟨rfl, _, hfields⟩ := ofRow_eq_ok h
  obtain ⟨p, _, hcolumn, w, hload, hset⟩ :=
    exists_of_forall₂ (forall₂_zip_right (forall₂_of_loadFields hfields)) hmem
  cases hset
  rw [hcolumn] at hload
  exact ⟨p.2, hload⟩

/-- **What loading gives back again.** A loaded value is its own coercion exactly if its time is no
finer than the column and of no year below zero, and a loaded entity is as a refresh leaves it exactly if
that holds of all its values. -/
theorem loaded_stable_iff (type : ColumnType) (cell : Cell) (t : Table) (row : Row) :
    (∀ v, type.load cell = .ok v → (type.coerce v = .ok v ↔ type.Keeps v)) ∧
    ∀ e, Entity.ofRow t row = .ok e →
      (e.refresh = (e, .ok ()) ↔ ∀ c v, (c, .set v) ∈ e.states → c.type.Keeps v) := by
  refine ⟨fun v h => ColumnType.coerce_loaded_iff h, fun e h => ?_⟩
  rw [Entity.refresh_eq_self_iff]
  refine forall_congr' fun c => forall_congr' fun v => forall_congr' fun hmem => ?_
  obtain ⟨cell, hcell⟩ := Entity.exists_load_of_ofRow h hmem
  exact ColumnType.coerce_loaded_iff hcell

section

private def visits : Table :=
  { name := "visits"
    columns := [⟨"at", .timestamp, none, none⟩, ⟨"until", .dateTime, none, none⟩]
    key := [⟨"at", .ascending⟩] }

/-- Microseconds in a timestamp column are kept, a fraction in a date-time column is not. -/
theorem loaded_stable_iff_visits :
    let row : Row := [.text "2024-3-9T14:5:6.123456", .text "2024/03/09 15:00:00.25"]
    let start : Value := .timestamp ⟨⟨2024, 3, 9, by decide⟩, ⟨14, 5, 6, 123456000, by decide⟩⟩
    let stop : Value := .dateTime ⟨⟨2024, 3, 9, by decide⟩, ⟨15, 0, 0, 250000000, by decide⟩⟩
    ColumnType.timestamp.load (.text "2024-3-9T14:5:6.123456") = .ok start ∧
      ColumnType.timestamp.coerce start = .ok start ∧
      ∃ e, Entity.ofRow visits row = .ok e ∧ e.fields = [.set start, .set stop] ∧
        e.refresh ≠ (e, .ok ()) := by
  intro row start stop
  have hload : ColumnType.timestamp.load (.text "2024-3-9T14:5:6.123456") = .ok start := rfl
  have hstart : ColumnType.timestamp.Keeps start := by
    rw [ColumnType.keeps_iff_of_asDateTime? rfl]
    decide
  have hstop : ¬ColumnType.dateTime.Keeps stop := by
    rw [ColumnType.keeps_iff_of_asDateTime? rfl]
    decide
  have hrow : ∃ e, Entity.ofRow visits row = .ok e ∧ e.fields = [.set start, .set stop] ∧
      e.states = visits.columns.zip [.set start, .set stop] := ⟨_, rfl, rfl, rfl⟩
  obtain ⟨e, he, hfields, hstates⟩ := hrow
  obtain ⟨hvalue, hentity⟩ :=
    loaded_stable_iff .timestamp (.text "2024-3-9T14:5:6.123456") visits row
  refine ⟨hload, (hvalue start hload).2 hstart, e, he, hfields, fun hsame => ?_⟩
  refine hstop ((hentity e he).1 hsame ⟨"until", .dateTime, none, none⟩ stop ?_)
  rw [hstates]
  exact .tail _ (.head _)

/-- Digits below the second and below the microsecond, and a year below zero after a `T`: all three
load, the first two are cut when they are stored, and the third does not load again. -/
theorem load_finerThanColumn :
    let d : Date := ⟨2024, 3, 9, by decide⟩
    let early : DateTime := ⟨⟨-5, 1, 1, by decide⟩, ⟨10, 0, 0, 0, by decide⟩⟩
    (ColumnType.dateTime.load (.text "2024/03/09 14:05:06.25") =
        .ok (.dateTime ⟨d, ⟨14, 5, 6, 250000000, by decide⟩⟩) ∧
      ColumnType.dateTime.coerce (.dateTime ⟨d, ⟨14, 5, 6, 250000000, by decide⟩⟩) =
        .ok (.dateTime ⟨d, ⟨14, 5, 6, 0, by decide⟩⟩)) ∧
    (ColumnType.timestamp.load (.text "2024/03/09 14:05:06.1234567") =
        .ok (.timestamp ⟨d, ⟨14, 5, 6, 123456700, by decide⟩⟩) ∧
      ColumnType.timestamp.coerce (.timestamp ⟨d, ⟨14, 5, 6, 123456700, by decide⟩⟩) =
        .ok (.timestamp ⟨d, ⟨14, 5, 6, 123456000, by decide⟩⟩)) ∧
    ColumnType.timestamp.load (.text "T-5/1/1 10:00") = .ok (.timestamp early) ∧
      ¬∃ w, ColumnType.timestamp.coerce (.timestamp early) = .ok w := by
  refine ⟨⟨rfl, rfl⟩, ⟨rfl, rfl⟩, rfl, ?_⟩
  rintro ⟨w, ⟨⟩⟩

end

end KeyedRows
