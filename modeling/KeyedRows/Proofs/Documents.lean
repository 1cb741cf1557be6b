import KeyedRows.Proofs.Calendar.Iso
import KeyedRows.Proofs.Json
import KeyedRows.Proofs.Json.Text
import KeyedRows.Sql.Style
import KeyedRows.Table.Json

/-!
# Values, styles and tables read back

* `Value.FewDigits` : what a decimal must satisfy to have a document;
* `Value.shown`, `Value.LeapsLast` : the value that a clock shows alike, and when it is the value itself;
* `Value.ofJson?_toJson`, `Style.ofJson?_toJson`, `Table.ofJson?_toJson` : what comes back from a document;
* `Table.load_eq_ok` : a text loads as the definition it holds, if that is valid;
* `documents_readBack` : the same for every text of the document;
* `ofJson?_toJson_withinMinute` : a time that comes back as another one.

A document of a record has all of its fields, so no default of the reader is ever used; only a part
that may be absent is written as null, which no value is. A leap second within a minute is written as the
second that follows it, and is read as that one.
-/

namespace KeyedRows

/-! ## Values -/

namespace Value

/-- A decimal has no more digits after the point than its text may have. -/
def FewDigits : Value → Prop
  | decimal d => (d.scale : Int) ≤ Int32.maxValue.toInt
  | _ => True

/-- The value with its time as a clock shows it. -/
def shown : Value → Value
  | dateTime t => dateTime ⟨t.date, t.time.shown⟩
  | timestamp t => timestamp ⟨t.date, t.time.shown⟩
  | v => v

/-- A leap second is the last second of its minute. -/
def LeapsLast (v : Value) : Prop := ∀ t, v.asDateTime? = some t → t.time.LeapsLast

theorem shown_eq_self_iff {v : Value} : v.shown = v ↔ v.LeapsLast := by
  have hshown {t : DateTime} : (⟨t.date, t.time.shown⟩ : DateTime) = t ↔ t.time.LeapsLast := by
    rw [← Time.shown_eq_self_iff]
    exact ⟨congrArg DateTime.time, fun h => by rw [h]⟩
  cases v with
  | dateTime t => simp [shown, LeapsLast, asDateTime?, hshown]
  | timestamp t => simp [shown, LeapsLast, asDateTime?, hshown]
  | _ => simp [shown, LeapsLast, asDateTime?]

theorem ofJson?_toJson {v : Value} (h : v.FewDigits) : ofJson? v.toJson = some v.shown := by
  rw [ofJson?_toJson_eq]
  cases v with
  | null | string _ | boolean _ => rfl
  | integer i =>
    show (int64? i.toInt).map integer = _
    rw [int64?_toInt]
    rfl
  | date d =>
    show (readIsoDate? d.iso).map date = _
    rw [readIsoDate?_iso]
    rfl
  | dateTime t =>
    show (readIsoDateTime? t.iso).map dateTime = _
    rw [readIsoDateTime?_iso]
    rfl
  | timestamp t =>
    show (readIsoDateTime? t.iso).map timestamp = _
    rw [readIsoDateTime?_iso]
    rfl
  | decimal d =>
    have hscale : d.scale < maxScale := by
      have hmax : Int32.maxValue.toInt = 2147483647 := rfl
      rw [FewDigits, hmax] at h
      rw [maxScale]
      omega
    show (Decimal.read? (toString d)).map decimal = _
    rw [Decimal.read?_toString, if_pos hscale]
    rfl

theorem ofJson?_toJson_of_leapsLast {v : Value} (h : v.FewDigits ∧ v.LeapsLast) :
    ofJson? v.toJson = some v := by
  rw [ofJson?_toJson h.1, shown_eq_self_iff.2 h.2]

theorem toJson_ne_null (v : Value) : v.toJson ≠ .null := Json.noConfusion

end Value

/-! ## Styles -/

theorem Placeholder.word?_name (p : Placeholder) : Json.word? words (.text p.name) = some p := by
  cases p <;> rfl

theorem Json.char?_singleton (c : Char) : char? (.text (String.singleton c)) = some c := by
  rw [char?, text?, Option.map_some, String.toList_singleton]

theorem Style.ofJson?_toJson (style : Style) : ofJson? style.toJson = some style := by
  have hfields : style.toJson.fields? ["placeholder", "quote_identifiers", "like_escape"] =
      some [some (.text style.placeholder.name), some (.bool style.quoteNames),
        some (.ofOption (fun c => .text (String.singleton c)) style.likeEscape)] :=
    Json.fields?_object rfl (by decide)
  have hescape := Json.optional_ofOption (o := style.likeEscape) fun c _ =>
    ⟨Json.noConfusion, Json.char?_singleton c⟩
  rw [ofJson?, hfields]
  simp [Json.orDefault, Placeholder.word?_name, Json.bool?, hescape]

/-! ## Tables -/

theorem ColumnType.ofJson?_name (type : ColumnType) : ofJson? (.text type.name) = some type := by
  cases type <;> rfl

theorem Stamp.ofJson?_name (stamp : Stamp) : ofJson? (.text stamp.name) = some stamp := by
  cases stamp <;> rfl

namespace Column

/-- An absent default stays absent, and a default of null stays one. -/
theorem ofJson?_toJson {c : Column} (h : ∀ v ∈ c.default, v.FewDigits ∧ v.LeapsLast) :
    ofJson? c.toJson = some c := by
  have hfields : c.toJson.fields? ["id", "type", "default", "stamp"] =
      some [some (.text c.id), some (.text c.type.name), some (.ofOption Value.toJson c.default),
        some (.ofOption (fun s => .text s.name) c.stamp)] :=
    Json.fields?_object rfl (by decide)
  have hdefault := Json.optional_ofOption fun v hv => ⟨v.toJson_ne_null, Value.ofJson?_toJson_of_leapsLast (h v hv)⟩
  have hstamp := Json.optional_ofOption (o := c.stamp) fun s _ => ⟨Json.noConfusion, s.ofJson?_name⟩
  rw [ofJson?, hfields]
  simp [Json.required, Json.text?, ColumnType.ofJson?_name, hdefault, hstamp]

end Column

theorem KeyPart.ofJson?_toJson (p : KeyPart) : ofJson? p.toJson = some p := by
  have hfields : p.toJson.fields? ["column", "ascending"] =
      some [some (.text p.column), some (.bool (p.direction = .ascending))] :=
    Json.fields?_object rfl (by decide)
  obtain ⟨column, direction⟩ := p
  rw [ofJson?, hfields]
  cases direction with
  | ascending | descending => rfl

theorem Key.ofJson?_toJson (key : Key) : ofJson? key.toJson = some key :=
  Json.list?_map fun p _ => p.ofJson?_toJson

namespace Table

theorem ofJson?_toJson {t : Table}
    (h : ∀ c ∈ t.columns, ∀ v ∈ c.default, v.FewDigits ∧ v.LeapsLast) : ofJson? t.toJson = some t := by
  have hfields : t.toJson.fields? ["name", "columns", "key"] =
      some [some (.text t.name), some (.array (t.columns.map Column.toJson)), some t.key.toJson] :=
    Json.fields?_object rfl (by decide)
  have hcolumns := Json.list?_map fun c hc => Column.ofJson?_toJson (h c hc)
  rw [ofJson?, hfields]
  simp [Json.required, Json.text?, hcolumns, Json.orDefault, Key.ofJson?_toJson]

theorem load_eq_ok {text : String} {t : Table} :
    load text = .ok t ↔ (Json.parse? text).bind ofJson? = some t ∧ t.validate = .ok () := by
  unfold load
  split
  · next hnone => simp [hnone]
  · next u hu =>
    rw [hu, Option.some.injEq]
    split
    · next hvalid => 
      rw [Except.ok.injEq]
      exact ⟨fun h => ⟨h, h ▸ hvalid⟩, And.left⟩
    · next e hvalid =>
      constructor
      · intro h
        cases h
      · rintro ⟨rfl, h⟩
        rw [hvalid] at h
        cases h

end Table

/-! ## Texts -/

/-- **What is written as a document is read from it.** Every value whose decimals have a text comes back as
the one that a clock shows alike, which is the value itself unless its time is a leap second within a minute.
So do every style and, without such a time, every column and every valid table, whichever text holds the
document. A default is a part of its column: where there is none, none comes back, and where it is null, null
does. A table that a text loads as is valid. -/
theorem documents_readBack :
    (∀ v : Value, v.FewDigits →
      Value.ofJson? v.toJson = some v.shown ∧ (v.shown = v ↔ v.LeapsLast)) ∧
      (∀ style : Style, Style.ofJson? style.toJson = some style ∧
        ∀ text, Json.parse? text = some style.toJson → Style.load? text = some style) ∧
      (∀ c : Column, (∀ v ∈ c.default, v.FewDigits ∧ v.LeapsLast) → Column.ofJson? c.toJson = some c) ∧
      (∀ t : Table, t.validate = .ok () →
        (∀ c ∈ t.columns, ∀ v ∈ c.default, v.FewDigits ∧ v.LeapsLast) →
          Table.ofJson? t.toJson = some t ∧
            ∀ text, Json.parse? text = some t.toJson → Table.load text = .ok t) ∧
      ∀ text t, Table.load text = .ok t → t.validate = .ok () := by
  refine ⟨fun v h => ⟨Value.ofJson?_toJson h, Value.shown_eq_self_iff⟩,
    fun style => ⟨style.ofJson?_toJson, fun text htext => ?_⟩, fun c => Column.ofJson?_toJson,
    fun t hvalid hdefaults => ?_, fun text t h => (Table.load_eq_ok.1 h).2⟩
  · rw [Style.load?, htext, Option.bind_some, style.ofJson?_toJson]
  · have hread := Table.ofJson?_toJson hdefaults
    refine ⟨hread, fun text htext => Table.load_eq_ok.2 ⟨?_, hvalid⟩⟩
    rw [htext, Option.bind_some, hread]

/-- Columns without a default, with null for one, with a decimal, and with a leap second before the year
zero. -/
private def postings : Table where
  name := "postings"
  columns := [⟨"id", .integer, none, none⟩, ⟨"memo", .string, some .null, none⟩,
    ⟨"rate", .decimal, some (.decimal ⟨-125, 2, by decide, by decide⟩), none⟩,
    ⟨"changed", .timestamp,
      some (.timestamp ⟨⟨-1, 12, 31, by decide⟩, ⟨23, 59, 59, 1005000000, by decide⟩⟩), some .updatedAt⟩]
  key := [⟨"id", .descending⟩]

theorem documents_readBack_postings :
    (∀ c ∈ postings.columns, ∀ v ∈ c.default,
      (v.FewDigits ∧ v.LeapsLast) ∧ Value.ofJson? v.toJson = some v) ∧
      (∀ c ∈ postings.columns, Column.ofJson? c.toJson = some c) ∧
      Style.load? (Style.toJson {}).render = some {} ∧ postings.validate = .ok () ∧
      Json.parse? postings.toJson.render = some postings.toJson ∧
      Table.load postings.toJson.render = .ok postings := by
  obtain ⟨hvalues, hstyles, hcolumns, htables, _⟩ := documents_readBack
  have hdefaults : ∀ c ∈ postings.columns, ∀ v ∈ c.default, v.FewDigits ∧ v.LeapsLast := by
    have hscale : (2 : Int) ≤ Int32.maxValue.toInt := by decide
    simpa [postings, Value.FewDigits, Value.LeapsLast, Value.asDateTime?, Time.LeapsLast] using hscale
  have hsame : ∀ c ∈ postings.columns, ∀ v ∈ c.default, Value.ofJson? v.toJson = some v := by
    intro c hc v hv
    obtain ⟨hfew, hlast⟩ := hdefaults c hc v hv
    obtain ⟨hread, hshown⟩ := hvalues v hfew
    rwa [hshown.2 hlast] at hread
  have hvalid : postings.validate = .ok () := rfl
  have htext := Json.parse?_render postings.toJson
  exact ⟨fun c hc v hv => ⟨hdefaults c hc v hv, hsame c hc v hv⟩, fun c hc => hcolumns c (hdefaults c hc),
    (hstyles {}).2 _ (Json.parse?_render _), hvalid, htext,
    (htables postings hvalid hdefaults).2 _ htext⟩

/-- A leap second half a minute before the last one is taken for the second that follows it. -/
theorem ofJson?_toJson_withinMinute :
    let d : Date := ⟨2024, 3, 9, by decide⟩
    let v : Value := .timestamp ⟨d, ⟨14, 5, 30, 1500000000, by decide⟩⟩
    let w : Value := .timestamp ⟨d, ⟨14, 5, 31, 500000000, by decide⟩⟩
    v.FewDigits ∧
      v.toJson = .object [("type", .text "timestamp"), ("value", .text "2024-03-09T14:05:31.500")] ∧
      Value.ofJson? v.toJson = some w ∧ w ≠ v := by
  refine ⟨trivial, rfl, rfl, ?_⟩
  rintro ⟨⟩

end KeyedRows
