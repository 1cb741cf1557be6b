import KeyedRows.Proofs.Coercion

/-!
# Loading what was stored

* `ColumnType.Kind`, `kind_of_load?` : the values that a column gives back;
* `exists_store_of_load` : it can store each of them;
* `ColumnType.day?` : the day that a value stands for in a column of days or times;
* `isSome_load?_day` : the forms of days and times load, unless the year is below zero;
* `exists_load_iff` : a value that was stored loads, unless its year is below zero;
* `load_yearBelowZero` : a day that is stored and does not load.

The writer puts a sign before a year below zero, and the reader takes that sign for a mark of the
date.
-/

namespace KeyedRows

namespace ColumnType

/-! ## Loaded values -/

/-- The values that a column gives back, null aside. -/
def Kind : ColumnType → Value → Prop
  | integer, v => ∃ i, v = .integer i
  | string, v => ∃ s, v = .string s
  | boolean, v => ∃ b, v = .boolean b
  | date, v => ∃ d : Date, 0 ≤ d.year ∧ v = .date d
  | dateTime, v => ∃ t : DateTime, t.time.LeapsLast ∧ v = .dateTime t
  | timestamp, v => ∃ t : DateTime, t.time.LeapsLast ∧ v = .timestamp t
  | decimal, v => ∃ d : Decimal, d.scale < maxScale ∧ v = .decimal d

theorem kind_of_load? {type : ColumnType} {cell : Cell} {v : Value} (h : type.load? cell = some v)
    (hv : v ≠ .null) : type.Kind v := by
  by_cases hcell : cell = .null
  · rw [hcell, load?_null] at h
    cases h
    exact absurd rfl hv
  cases type <;> cases cell <;>
    simp only [load?, Option.some.injEq, Option.map_eq_some_iff, reduceCtorEq, not_true] at h hcell
  case date.text s =>
    obtain ⟨d, hread, rfl⟩ := h
    exact ⟨d, nonneg_of_readDate? hread, rfl⟩
  case dateTime.text | timestamp.text =>
    obtain ⟨t, hread, rfl⟩ := h
    exact ⟨t, leapsLast_of_readDateTime? hread, rfl⟩
  case decimal.integer i =>
    exact ⟨_, Decimal.scale_ofInt64_lt i, h.symm⟩
  case decimal.text | decimal.real =>
    obtain ⟨d, hread, rfl⟩ := h
    exact ⟨d, Decimal.scale_lt_of_readChars? hread, rfl⟩
  all_goals
    first
      | exact ⟨_, h.symm⟩
      | (obtain ⟨x, _, rfl⟩ := h; exact ⟨x, rfl⟩)

/-- The day that a value stands for in a column of days or times. -/
def day? : ColumnType → Value → Option Date
  | date, v => dateOf? v
  | dateTime, v | timestamp, v => (dateTimeOf? v).map DateTime.date
  | _, _ => none

theorem store?_date {v : Value} (hv : v ≠ .null) :
    date.store? v = (dateOf? v).map fun d => .text d.slashed := by
  cases v with
  | null => exact absurd rfl hv
  | _ => rfl

theorem store?_dateTime {v : Value} (hv : v ≠ .null) :
    dateTime.store? v = (dateTimeOf? v).map fun t => .text t.toSeconds := by
  cases v with
  | null => exact absurd rfl hv
  | _ => rfl

theorem store?_timestamp {v : Value} (hv : v ≠ .null) :
    timestamp.store? v = (dateTimeOf? v).map fun t => .text t.toMicros := by
  cases v with
  | null => exact absurd rfl hv
  | _ => rfl

/-- A stored day or time loads unless its year is below zero, whichever of the three forms it has. -/
theorem isSome_load?_day {type : ColumnType} {v : Value} {cell : Cell} {d : Date}
    (h : type.store? v = some cell) (hd : type.day? v = some d) :
    (type.load? cell).isSome = true ↔ 0 ≤ d.year := by
  have hv : v ≠ .null := by
    rintro rfl
    cases type <;> cases hd
  cases type with
  | date =>
    change dateOf? v = some d at hd
    rw [store?_date hv, hd] at h
    cases h
    rw [load?, readDate?_slashed, Option.isSome_map, Option.isSome_ite]
  | dateTime =>
    obtain ⟨t, ht, rfl⟩ := Option.map_eq_some_iff.1 hd
    rw [store?_dateTime hv, ht] at h
    cases h
    rw [load?, readDateTime?_toSeconds, Option.isSome_map, Option.isSome_ite]
  | timestamp =>
    obtain ⟨t, ht, rfl⟩ := Option.map_eq_some_iff.1 hd
    rw [store?_timestamp hv, ht] at h
    cases h
    rw [load?, readDateTime?_toMicros, Option.isSome_map, Option.isSome_ite]
  | _ => cases hd

/-- Whatever else is stored loads, but for a decimal of the largest scale. -/
theorem isSome_load?_of_day?_eq_none {type : ColumnType} {v : Value} {cell : Cell}
    (hscale : ∀ d, v = .decimal d → d.scale < maxScale) (h : type.store? v = some cell)
    (hd : type.day? v = none) : (type.load? cell).isSome = true := by
  by_cases hv : v = .null
  · rw [hv, store?_null] at h
    cases h
    rw [load?_null]
    rfl
  cases type with
  | integer =>
    obtain ⟨i, rfl⟩ := form_of_store? h hv
    rfl
  | string =>
    obtain ⟨s, rfl⟩ := form_of_store? h hv
    rfl
  | boolean =>
    obtain ⟨b, rfl⟩ := form_of_store? h hv
    rfl
  | date =>
    change dateOf? v = none at hd
    rw [store?_date hv, hd] at h
    cases h
  | dateTime =>
    rw [store?_dateTime hv, Option.map_eq_none_iff.1 hd] at h
    cases h
  | timestamp =>
    rw [store?_timestamp hv, Option.map_eq_none_iff.1 hd] at h
    cases h
  | decimal =>
    suffices hform : ∃ d : Decimal, d.scale < maxScale ∧ cell = .text (toString d) by
      obtain ⟨d, hlt, rfl⟩ := hform
      rw [load?, Option.isSome_map, Decimal.isSome_read?_toString hlt]
    cases v with
    | null => exact absurd rfl hv
    | decimal d =>
      cases h
      exact ⟨d, hscale d rfl, rfl⟩
    | integer i =>
      cases h
      exact ⟨.ofInt64 i, Decimal.scale_ofInt64_lt i, by rw [Decimal.toString_ofInt64]⟩
    | string s =>
      obtain ⟨d, hread, rfl⟩ := Option.map_eq_some_iff.1 h
      exact ⟨d, Decimal.scale_lt_of_readChars? hread, rfl⟩
    | _ => cases h

/-- **What was stored loads, unless its year is below zero.** Decimals of the largest scale, which
no text spells, are left out. -/
theorem exists_load_iff {type : ColumnType} {v : Value} {cell : Cell}
    (hscale : ∀ d, v = .decimal d → d.scale < maxScale) (h : type.store v = .ok cell) :
    (∃ w, type.load cell = .ok w) ↔ ∀ d, type.day? v = some d → 0 ≤ d.year := by
  have hstore := store_eq_ok.1 h
  have hload : (∃ w, type.load cell = .ok w) ↔ (type.load? cell).isSome = true := by
    rw [Option.isSome_iff_exists]
    exact exists_congr fun w => load_eq_ok
  rw [hload]
  cases hd : type.day? v with
  | none => simpa using isSome_load?_of_day?_eq_none hscale hstore hd
  | some d =>
    rw [isSome_load?_day hstore hd]
    exact ⟨fun hy _ heq => by cases heq; exact hy, fun hall => hall d rfl⟩

/-- The last leap second that a timestamp can name, in a year of six digits. -/
theorem exists_load_iff_lastYear :
    let v : Value := .timestamp ⟨⟨262142, 12, 31, by decide⟩, ⟨23, 59, 59, 1999999999, by decide⟩⟩
    let cell : Cell := .text "+262142/12/31 23:59:60.999999"
    (∀ d, v = .decimal d → d.scale < maxScale) ∧ timestamp.store v = .ok cell ∧
      ((∃ w, timestamp.load cell = .ok w) ↔ ∀ d, timestamp.day? v = some d → 0 ≤ d.year) := by
  intro v cell
  have hscale : ∀ d, v = .decimal d → d.scale < maxScale := fun d hd => by simp [v] at hd
  have h : timestamp.store v = .ok cell := rfl
  exact ⟨hscale, h, exists_load_iff hscale h⟩

/-- A day of a year below zero is stored as a text that does not load, also with a time. -/
theorem load_yearBelowZero :
    let d : Date := ⟨-44, 3, 15, by decide⟩
    let t : DateTime := ⟨d, .midnight⟩
    (date.store (.date d) = .ok (.text "-0044/03/15") ∧
      ¬∃ w, date.load (.text "-0044/03/15") = .ok w) ∧
    (dateTime.store (.dateTime t) = .ok (.text "-0044/03/15 00:00:00") ∧
      ¬∃ w, dateTime.load (.text "-0044/03/15 00:00:00") = .ok w) ∧
    timestamp.store (.timestamp t) = .ok (.text "-0044/03/15 00:00:00.000000") ∧
      ¬∃ w, timestamp.load (.text "-0044/03/15 00:00:00.000000") = .ok w := by
  refine ⟨⟨rfl, ?_⟩, ⟨rfl, ?_⟩, rfl, ?_⟩ <;> rintro ⟨w, ⟨⟩⟩

end ColumnType
end KeyedRows
