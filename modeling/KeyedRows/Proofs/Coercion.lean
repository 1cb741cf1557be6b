import KeyedRows.ColumnType
import KeyedRows.Proofs.Calendar.Text
import KeyedRows.Proofs.Decimal.Text
import KeyedRows.Proofs.Outcome

/-!
# Storing what was loaded

* `isNull_of_store?` : null is stored as null, and nothing else is;
* `store?_of_load?` : what a stored value loads as is stored in the same form;
* `coerce_eq_ok` : coercion is storing and then loading;
* `coerce_stable` : coercion is a projection that storage cannot see;
* `coerce_inj_iff` : values are coerced alike exactly if they are stored alike;
* `Canonical` : a cell that its column would store in the same form again;
* `coerce_eq_iff` : a value is coerced to what a canonical cell loads as exactly if that cell is its
  storage form.
-/

namespace KeyedRows

theorem Value.isNull_eq_true {v : Value} : v.isNull = true ↔ v = .null := by
  cases v <;> simp [isNull]

namespace ColumnType

theorem store_eq_ok {type : ColumnType} {v : Value} {cell : Cell} :
    type.store v = .ok cell ↔ type.store? v = some cell := by
  unfold store
  cases type.store? v <;> simp

theorem load_eq_ok {type : ColumnType} {cell : Cell} {v : Value} :
    type.load cell = .ok v ↔ type.load? cell = some v := by
  unfold load
  cases type.load? cell <;> simp

theorem coerce_eq_ok {type : ColumnType} {v w : Value} :
    type.coerce v = .ok w ↔ ∃ cell, type.store? v = some cell ∧ type.load? cell = some w := by
  rw [coerce, bind_eq_ok]
  simp only [store_eq_ok, load_eq_ok]

theorem coerce_eq_ok_of_store? {type : ColumnType} {v w : Value} {cell : Cell}
    (hs : type.store? v = some cell) : type.coerce v = .ok w ↔ type.load? cell = some w := by
  rw [coerce_eq_ok]
  constructor
  · rintro ⟨c, hc, hl⟩
    rw [hs] at hc
    cases hc
    exact hl
  · exact fun hl => ⟨cell, hs, hl⟩

/-! ## Null -/

theorem store?_null (type : ColumnType) : type.store? .null = some .null := by
  cases type <;> rfl

theorem load?_null (type : ColumnType) : type.load? .null = some .null := by
  cases type <;> rfl

theorem isNull_of_store? {type : ColumnType} {v : Value} {cell : Cell}
    (h : type.store? v = some cell) : cell.isNull = v.isNull := by
  cases type <;> cases v <;>
    simp only [store?, Option.some.injEq, Option.map_eq_some_iff, reduceCtorEq] at h <;>
    first
      | (subst h; rfl)
      | (obtain ⟨_, _, rfl⟩ := h; rfl)

/-! ## Storage forms -/

/-- The storage forms of a type, null aside. -/
def Form : ColumnType → Cell → Prop
  | integer, cell => ∃ i, cell = .integer i
  | string, cell => ∃ s, cell = .text s
  | boolean, cell => ∃ b, cell = .ofBool b
  | date, cell => ∃ d : Date, cell = .text d.slashed
  | dateTime, cell => ∃ t : DateTime, cell = .text t.toSeconds
  | timestamp, cell => ∃ t : DateTime, cell = .text t.toMicros
  | decimal, cell => ∃ d : Decimal, cell = .text (toString d)

theorem form_of_store? {type : ColumnType} {v : Value} {cell : Cell} (h : type.store? v = some cell)
    (hv : v ≠ .null) : type.Form cell := by
  cases type with
  | integer =>
    cases v <;> simp only [store?, Option.some.injEq, Option.map_eq_some_iff, reduceCtorEq] at h
    case null => exact absurd rfl hv
    case integer i => exact ⟨i, h.symm⟩
    case boolean b => exact ⟨_, h.symm⟩
    case string s => obtain ⟨i, _, rfl⟩ := h; exact ⟨i, rfl⟩
    case decimal d => obtain ⟨i, _, rfl⟩ := h; exact ⟨i, rfl⟩
  | string =>
    cases v <;> simp only [store?, Option.some.injEq] at h
    case null => exact absurd rfl hv
    all_goals exact ⟨_, h.symm⟩
  | boolean =>
    cases v <;> simp only [store?, Option.some.injEq, Option.map_eq_some_iff, reduceCtorEq] at h
    case null => exact absurd rfl hv
    case string s => obtain ⟨b, _, rfl⟩ := h; exact ⟨b, rfl⟩
    all_goals exact ⟨_, h.symm⟩
  | date =>
    cases v <;> simp only [store?, Option.some.injEq, Option.map_eq_some_iff] at h
    case null => exact absurd rfl hv
    all_goals obtain ⟨d, _, rfl⟩ := h; exact ⟨d, rfl⟩
  | dateTime =>
    cases v <;> simp only [store?, Option.some.injEq, Option.map_eq_some_iff] at h
    case null => exact absurd rfl hv
    all_goals obtain ⟨t, _, rfl⟩ := h; exact ⟨t, rfl⟩
  | timestamp =>
    cases v <;> simp only [store?, Option.some.injEq, Option.map_eq_some_iff] at h
    case null => exact absurd rfl hv
    all_goals obtain ⟨t, _, rfl⟩ := h; exact ⟨t, rfl⟩
  | decimal =>
    cases v <;> simp only [store?, Option.some.injEq, Option.map_eq_some_iff, reduceCtorEq] at h
    case null => exact absurd rfl hv
    case decimal d => exact ⟨d, h.symm⟩
    case integer i => exact ⟨.ofInt64 i, by rw [Decimal.toString_ofInt64, h]⟩
    case string s => obtain ⟨d, _, rfl⟩ := h; exact ⟨d, rfl⟩

theorem store?_of_form {type : ColumnType} {cell : Cell} {w : Value} (hform : type.Form cell)
    (h : type.load? cell = some w) : type.store? w = some cell := by
  cases type with
  | integer =>
    obtain ⟨i, rfl⟩ := hform
    cases h
    rfl
  | string =>
    obtain ⟨s, rfl⟩ := hform
    cases h
    rfl
  | boolean =>
    obtain ⟨b, rfl⟩ := hform
    cases h
    cases b <;> rfl
  | date =>
    obtain ⟨d, rfl⟩ := hform
    simp only [load?, readDate?_slashed] at h
    split at h <;> cases h
    rfl
  | dateTime =>
    obtain ⟨t, rfl⟩ := hform
    simp only [load?, readDateTime?_toSeconds] at h
    split at h <;> cases h
    show some (Cell.text (DateTime.toSeconds ⟨t.date, t.time.atNano _ _⟩)) = _
    rw [DateTime.toSeconds, DateTime.toSeconds, Time.toChars_atNano]
  | timestamp =>
    obtain ⟨t, rfl⟩ := hform
    simp only [load?, readDateTime?_toMicros] at h
    split at h <;> cases h
    have hmicros : t.time.clockNano / 1000 * 1000 / 1000 = t.time.clockNano / 1000 :=
      Nat.mul_div_cancel _ (by decide)
    show some (Cell.text (DateTime.toMicros ⟨t.date, t.time.atNano _ _⟩)) = _
    rw [DateTime.toMicros, DateTime.toMicros, Time.toChars_atNano, Time.atNano, Time.clockNano_ofClock,
      hmicros]
  | decimal =>
    obtain ⟨d, rfl⟩ := hform
    simp only [load?, Decimal.read?_toString] at h
    split at h <;> cases h
    rfl

/-- **What a stored value loads as is stored in the same form.** -/
theorem store?_of_load? {type : ColumnType} {v w : Value} {cell : Cell}
    (hs : type.store? v = some cell) (hl : type.load? cell = some w) : type.store? w = some cell := by
  by_cases hv : v = .null
  · rw [hv, store?_null] at hs
    cases hs
    rw [load?_null] at hl
    cases hl
    exact store?_null type
  · exact store?_of_form (form_of_store? hs hv) hl

/-! ## Coercion -/

theorem store?_of_coerce {type : ColumnType} {v w : Value} (h : type.coerce v = .ok w) :
    type.store? w = type.store? v := by
  obtain ⟨cell, hs, hl⟩ := coerce_eq_ok.1 h
  rw [store?_of_load? hs hl, hs]

theorem coerce_of_coerce {type : ColumnType} {v w : Value} (h : type.coerce v = .ok w) :
    type.coerce w = .ok w := by
  obtain ⟨cell, hs, hl⟩ := coerce_eq_ok.1 h
  exact coerce_eq_ok.2 ⟨cell, store?_of_load? hs hl, hl⟩

/-- **Coercion is a projection that storage cannot see.** A coerced value is stored in the same form
as the value it came from, is coerced to itself, and is null only if that value was. -/
theorem coerce_stable {type : ColumnType} {v w : Value} (h : type.coerce v = .ok w) :
    type.store w = type.store v ∧ type.coerce w = .ok w ∧ (w = .null ↔ v = .null) := by
  obtain ⟨cell, hs, hl⟩ := coerce_eq_ok.1 h
  have hw : type.store? w = some cell := store?_of_load? hs hl
  refine ⟨?_, coerce_eq_ok.2 ⟨cell, hw, hl⟩, ?_⟩
  · rw [store_eq_ok.2 hw, store_eq_ok.2 hs]
  · rw [← Value.isNull_eq_true, ← Value.isNull_eq_true, ← isNull_of_store? hw, isNull_of_store? hs]

/-- A text with a day of one digit, a leap second and digits below the microsecond. -/
theorem coerce_stable_leapSecond :
    let v : Value := .string " 2024-2-29T23:59:60.1234567 "
    let w : Value := .timestamp ⟨⟨2024, 2, 29, by decide⟩, ⟨23, 59, 59, 1123456000, by decide⟩⟩
    timestamp.coerce v = .ok w ∧ timestamp.store v = .ok (.text "2024/02/29 23:59:60.123456") ∧
      timestamp.store w = timestamp.store v ∧ timestamp.coerce w = .ok w ∧
      (w = .null ↔ v = .null) := by
  intro v w
  have h : timestamp.coerce v = .ok w := rfl
  exact ⟨h, rfl, coerce_stable h⟩

/-- Two values are coerced to the same value exactly if they are stored in the same form. -/
theorem coerce_inj_iff {type : ColumnType} {v v' w w' : Value} (h : type.coerce v = .ok w)
    (h' : type.coerce v' = .ok w') : w = w' ↔ type.store? v = type.store? v' := by
  constructor
  · rintro rfl
    rw [← store?_of_coerce h, ← store?_of_coerce h']
  · intro hsame
    obtain ⟨cell, hs, hw⟩ := coerce_eq_ok.1 h
    obtain ⟨cell', hs', hw'⟩ := coerce_eq_ok.1 h'
    rw [hs, hs', Option.some.injEq] at hsame
    rw [← hsame, hw, Option.some.injEq] at hw'
    exact hw'

/-- The cell loads as a value that the column stores in the same form again. -/
def Canonical (type : ColumnType) (cell : Cell) : Prop :=
  ∃ v, type.load? cell = some v ∧ type.store? v = some cell

/-- A value is coerced to what a canonical cell loads as exactly if that cell is its storage
form. -/
theorem coerce_eq_iff {type : ColumnType} {cell : Cell} (hcell : type.Canonical cell) {u v w : Value}
    (hload : type.load? cell = some u) (hv : type.coerce v = .ok w) :
    w = u ↔ type.store? v = some cell := by
  obtain ⟨u', hu, hstore⟩ := hcell
  rw [hload] at hu
  cases hu
  constructor
  · rintro rfl
    rw [← store?_of_coerce hv, hstore]
  · intro hsame
    obtain ⟨c, hc, hw⟩ := coerce_eq_ok.1 hv
    rw [hsame] at hc
    cases hc
    rw [hload] at hw
    cases hw
    rfl

end ColumnType
end KeyedRows
