import KeyedRows.Proofs.Loading

/-!
# The text of a value stands for it

* `readInteger?_toString` : an integer reads back from its digits;
* `dashed` : the text with `-` for `/` and `T` for the blank;
* `readDate?_dashed`, `readDateTime?_dashed_toSeconds`, `readDateTime?_dashed_toMicros` : the readers do not
  tell the two forms of a date apart;
* `ColumnType.store?_string_of_load?` : a text is stored as what it loads as would be;
* `load?_toText` : a coerced value is what a cell with its text loads as;
* `coerce_toText` : so its text, also with the other marks, is coerced to the value itself.
-/

namespace KeyedRows

/-! ## Integers -/

theorem toList_toString (i : Int64) : (toString i.toInt).toList = Decimal.render i.toInt 0 := by
  obtain ⟨hm, hs⟩ := Decimal.mantissa_ofInt64 i
  rw [← Decimal.toString_ofInt64, Decimal.toList_toString, Decimal.toChars, hm, hs]

theorem readInteger?_toString (i : Int64) : readInteger? (toString i.toInt) = some i := by
  have hdigits : Decimal.unsignedChars i.toInt 0 = Text.padded 1 i.toInt.natAbs := rfl
  have hread : Text.integer? (Decimal.render i.toInt 0) = some i := by
    rw [Text.integer?, Decimal.splitSign_render, hdigits]
    simp only [Text.natural?_padded, Option.bind_some, Decimal.signed_natAbs, int64?_toInt]
  unfold readInteger?
  rw [toList_toString, Text.trim_of_all fun _ => Decimal.isBlank_of_mem_render]
  dsimp only
  rw [hread]
  rfl

/-! ## The other marks of a date -/

/-- A character of a text with dashes for slashes and a `T` for the blank. -/
def dash (c : Char) : Char := if c = '/' then '-' else if c = ' ' then 'T' else c

def dashed (s : String) : String := String.ofList (s.toList.map dash)

theorem partsDate_dash (c : Char) : partsDate (dash c) = partsDate c := by
  unfold dash
  split
  · next h => rw [h]; rfl
  · split
    · next h => rw [h]; rfl
    · rfl

theorem isBlank_dash {c : Char} (h : Text.isBlank c = false) : Text.isBlank (dash c) = false := by
  unfold dash
  split
  · rfl
  · split
    · rfl
    · exact h

theorem dash_eq_self {c : Char} (hslash : c ≠ '/') (hblank : Text.isBlank c = false) : dash c = c := by
  have hspace : c ≠ ' ' := by
    rintro rfl
    cases hblank
  rw [dash, if_neg hslash, if_neg hspace]

theorem slashes_map_dash {cs : List Char} (h : ∀ c ∈ cs, Text.isBlank c = false) :
    slashes (cs.map dash) = slashes cs := by
  rw [slashes, slashes, List.map_map]
  refine List.map_congr_left fun c hc => ?_
  by_cases hslash : c = '/'
  · rw [hslash]
    rfl
  · rw [Function.comp_apply, dash_eq_self hslash (h c hc)]

section
variable (d : Date)

theorem map_dash_toChars : (∀ c ∈ (d.toChars '/').map dash, partsDate c = false) ∧
    ∀ c ∈ (d.toChars '/').map dash, Text.isBlank c = false := by
  rw [List.forall_mem_map, List.forall_mem_map]
  refine ⟨fun c hc => ?_, fun c hc => isBlank_dash (isBlank_of_mem_toChars hc)⟩
  rw [partsDate_dash, partsDate_of_mem_toChars hc]

theorem splitDateTime_dashed_date :
    splitDateTime ((d.toChars '/').map dash) = splitDateTime (d.toChars '/') := by
  obtain ⟨hparts, hblank⟩ := map_dash_toChars d
  rw [splitDateTime_bare hparts hblank, splitDateTime_date,
    slashes_map_dash fun _ => isBlank_of_mem_toChars]

/-- The blank becomes another mark that parts the date from the time; in the time there is none. -/
theorem splitDateTime_dashed_dateTime {time : List Char} (hne : time ≠ [])
    (htime : ∀ c ∈ time, c.isDigit ∨ c = ':' ∨ c = '.') :
    splitDateTime ((d.toChars '/' ++ ' ' :: time).map dash) =
      splitDateTime (d.toChars '/' ++ ' ' :: time) := by
  obtain ⟨hparts, hdate⟩ := map_dash_toChars d
  have hblank : ∀ c ∈ time, Text.isBlank c = false := fun c hc => by
    rcases htime c hc with h | rfl | rfl
    · exact Text.isBlank_of_isDigit h
    · rfl
    · rfl
  have hsame : time.map dash = time := by
    rw [List.map_congr_left (g := id) fun c hc => ?_, List.map_id]
    refine dash_eq_self ?_ (hblank c hc)
    rintro rfl
    rcases htime _ hc with h | h | h <;> cases h
  have hmark : (' ' :: time).map dash = 'T' :: time := by
    rw [List.map_cons, hsame]
    rfl
  have hdash : (d.toChars '/').map dash ≠ [] := by simp [toChars_ne_nil]
  rw [List.map_append, hmark, splitDateTime_parted hparts rfl hdate hdash hne hblank,
    splitDateTime_dateTime d hne hblank, slashes_map_dash fun _ => isBlank_of_mem_toChars]

theorem readDate?_dashed : readDate? (dashed d.slashed) = readDate? d.slashed := by
  rw [readDate?, readDate?, dashed, Date.slashed, String.toList_ofList, String.toList_ofList,
    splitDateTime_dashed_date]

end

theorem readDateTime?_dashed_toSeconds (t : DateTime) :
    readDateTime? (dashed t.toSeconds) = readDateTime? t.toSeconds := by
  refine readDateTime?_congr ?_
  rw [dashed, DateTime.toSeconds, String.toList_ofList, String.toList_ofList]
  refine splitDateTime_dashed_dateTime t.date (by simp [Time.toChars]) fun c hc => ?_
  exact (mem_time hc).imp_right .inl

theorem readDateTime?_dashed_toMicros (t : DateTime) :
    readDateTime? (dashed t.toMicros) = readDateTime? t.toMicros := by
  refine readDateTime?_congr ?_
  rw [dashed, DateTime.toMicros, String.toList_ofList, String.toList_ofList, List.append_assoc,
    List.cons_append]
  refine splitDateTime_dashed_dateTime t.date (by simp) fun c hc => ?_
  rcases List.mem_append.1 hc with h | h
  · exact (mem_time h).imp_right .inl
  · rcases List.mem_cons.1 h with h | h
    · exact .inr (.inr h)
    · exact .inl (Text.isDigit_of_mem_padded h)

namespace ColumnType

variable {type : ColumnType} {v w : Value}

/-! ## Texts that load -/

theorem store?_string_of_load? {s : String} (h : type.load? (.text s) = some w) :
    type.store? (.string s) = type.store? w := by
  cases type with
  | string =>
    cases h
    rfl
  | _ =>
    obtain ⟨x, hread, rfl⟩ := Option.map_eq_some_iff.1 h
    simp only [store?, dateOf?, dateTimeOf?, hread, Option.map_some]

theorem coerce_string {s : String} (h : type.load? (.text s) = some w) (hw : type.coerce w = .ok w) :
    type.coerce (.string s) = .ok w := by
  obtain ⟨cell, hs, hl⟩ := coerce_eq_ok.1 hw
  exact coerce_eq_ok.2 ⟨cell, by rw [store?_string_of_load? h, hs], hl⟩

theorem load?_toText (hkind : type.Kind w) (hw : type.coerce w = .ok w) :
    type.load? (.text w.toText) = some w := by
  cases type with
  | integer =>
    obtain ⟨i, rfl⟩ := hkind
    rw [load?, Value.toText, readInteger?_toString, Option.map_some]
  | string =>
    obtain ⟨s, rfl⟩ := hkind
    rfl
  | boolean =>
    obtain ⟨b, rfl⟩ := hkind
    cases b <;> rfl
  | date =>
    obtain ⟨d, _, rfl⟩ := hkind
    exact (coerce_eq_ok_of_store? rfl).1 hw
  | dateTime =>
    obtain ⟨t, _, rfl⟩ := hkind
    exact (coerce_eq_ok_of_store? rfl).1 hw
  | timestamp =>
    obtain ⟨t, _, rfl⟩ := hkind
    exact (coerce_eq_ok_of_store? rfl).1 hw
  | decimal =>
    obtain ⟨d, _, rfl⟩ := hkind
    exact (coerce_eq_ok_of_store? rfl).1 hw

/-- A column of days or times loads both forms of the text of a value alike. -/
theorem load?_dashed_toText (htype : type = date ∨ type = dateTime ∨ type = timestamp)
    (hkind : type.Kind w) : type.load? (.text (dashed w.toText)) = type.load? (.text w.toText) := by
  rcases htype with rfl | rfl | rfl
  · obtain ⟨d, _, rfl⟩ := hkind
    rw [load?, load?, Value.toText, readDate?_dashed]
  · obtain ⟨t, _, rfl⟩ := hkind
    rw [load?, load?, Value.toText, readDateTime?_dashed_toSeconds]
  · obtain ⟨t, _, rfl⟩ := hkind
    rw [load?, load?, Value.toText, readDateTime?_dashed_toMicros]

/-- **The text of a coerced value stands for it.** Coercion takes it back to the value, and in columns
of days or times also with `-` for `/` and `T` for the blank. -/
theorem coerce_toText (h : type.coerce v = .ok w) (hw : w ≠ .null) :
    type.coerce (.string w.toText) = .ok w ∧
      (type = date ∨ type = dateTime ∨ type = timestamp →
        type.coerce (.string (dashed w.toText)) = .ok w) := by
  obtain ⟨_, _, hload⟩ := coerce_eq_ok.1 h
  have hkind := kind_of_load? hload hw
  have hself := coerce_of_coerce h
  have htext := load?_toText hkind hself
  refine ⟨coerce_string htext hself, fun htype => coerce_string ?_ hself⟩
  rw [load?_dashed_toText htype hkind, htext]

/-- A leap second in a year of five digits, with digits below the microsecond that are cut first. -/
theorem coerce_toText_leapSecond :
    let v : Value := .timestamp ⟨⟨10000, 2, 29, by decide⟩, ⟨23, 59, 59, 1123456789, by decide⟩⟩
    let w : Value := .timestamp ⟨⟨10000, 2, 29, by decide⟩, ⟨23, 59, 59, 1123456000, by decide⟩⟩
    timestamp.coerce v = .ok w ∧ w ≠ .null ∧ w.toText = "+10000/02/29 23:59:60.123456" ∧
      timestamp.coerce (.string "+10000/02/29 23:59:60.123456") = .ok w ∧
      timestamp.coerce (.string "+10000-02-29T23:59:60.123456") = .ok w := by
  intro v w
  have h : timestamp.coerce v = .ok w := rfl
  have hnull : w ≠ .null := by simp [w]
  have htext : w.toText = "+10000/02/29 23:59:60.123456" := rfl
  have hmarks : dashed "+10000/02/29 23:59:60.123456" = "+10000-02-29T23:59:60.123456" := rfl
  obtain ⟨hwritten, hdashed⟩ := coerce_toText h hnull
  rw [htext, hmarks] at hdashed
  rw [htext] at hwritten
  exact ⟨h, hnull, htext, hwritten, hdashed (.inr (.inr rfl))⟩

end ColumnType
end KeyedRows
