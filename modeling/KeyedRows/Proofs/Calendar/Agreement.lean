import KeyedRows.Proofs.Calendar.Text

/-!
# The two readers of dates

* `Layout.date?_of_scan?` : a time behind a date leaves the date as it is read alone;
* `date_of_readDateTime?` : so a date-time has the date that its text has;
* `readDateTime?_of_bare` : and a text without a time is a date at midnight;
* `ReadAlike` : both readers find the same in two texts;
* `readAlike_slashes` : `/` for `-` in the date makes no difference;
* `readAlike_mark` : nor does a blank for the `T` between date and time;
* `dateReaders_agree` : the two readers take a text apart in one way.
-/

namespace KeyedRows

/-! ## One date -/

theorem Layout.date?_of_scan? {items : Layout} {date time : List Char} {r r' : Reading}
    (hitems : ∀ item ∈ items, item ≠ .year ∧ item ≠ .month ∧ item ≠ .day)
    (hdate : Layout.date.scan? date = some r)
    (h : scan? (Layout.date ++ items) (date ++ ' ' :: time) = some r') : r'.date? = r.date? := by
  have htail : ∀ c ∈ (' ' :: time).head?, c.isDigit = false := by
    rintro c ⟨⟩
    rfl
  rw [scan?, scanFrom?_append htail (by decide) items hdate] at h
  exact date?_of_scanFrom? hitems h

section
variable {s s' : String}

/-- The scanners of date-times go over the same characters as that of dates, and then on. -/
theorem date_of_readDateTime? {d : Date} {t : DateTime} (hdate : readDate? s = some d)
    (h : readDateTime? s = some t) : t.date = d := by
  obtain ⟨r, hscan, hr⟩ := Option.bind_eq_some_iff.1 hdate
  have hsame {r' : Reading} (hdate' : r'.date? = r.date?) (ht : r'.dateTime? = some t) : t.date = d := by
    have hfound := (Reading.dateTime?_eq_some_iff.1 ht).1
    rw [hdate', hr, Option.some.injEq] at hfound
    exact hfound.symm
  unfold readDateTime? at h
  split at h
  · next date hsplit =>
    rw [hsplit] at hscan
    rw [hscan] at h
    exact hsame rfl h
  · next date time hsplit =>
    rw [hsplit] at hscan
    rcases (Option.orElse_eq_some _ _ t).1 h with h | ⟨_, h⟩
    · obtain ⟨r', hscan', ht⟩ := Option.bind_eq_some_iff.1 h
      have hitems : Layout.toFraction = Layout.date ++ [.blanks, .hour, .mark ':', .minute, .mark ':',
        .second, .fraction] := rfl
      rw [hitems] at hscan'
      exact hsame (Layout.date?_of_scan? (by decide) hscan hscan') ht
    · obtain ⟨r', hscan', ht⟩ := Option.bind_eq_some_iff.1 h
      exact hsame (Layout.date?_of_scan? (by decide) hscan hscan') ht

theorem readDateTime?_of_bare (hparts : ∀ c ∈ Text.trim s.toList, partsDate c = false) :
    readDateTime? s = (readDate? s).map fun d => ⟨d, .midnight⟩ := by
  have hsplit := splitDateTime_of_bare hparts rfl
  unfold readDateTime? readDate?
  rw [hsplit]
  dsimp only
  cases hscan : Layout.date.scan? (slashes (Text.trim s.toList)) with
  | none => rfl
  | some r =>
    have htime : r.time? = some .midnight := Layout.time?_of_scanFrom? (by decide) hscan
    rw [Option.bind_some, Option.bind_some, Reading.dateTime?, htime]
    cases r.date? <;> rfl

/-! ## Other marks -/

/-- Both readers find the same in two texts. -/
def ReadAlike (s s' : String) : Prop := readDate? s = readDate? s' ∧ readDateTime? s = readDateTime? s'

theorem readAlike_of_split (h : splitDateTime s.toList = splitDateTime s'.toList) : ReadAlike s s' := by
  refine ⟨?_, readDateTime?_congr h⟩
  rw [readDate?, readDate?, h]

end

/-! ### Slashes -/

theorem isBlank_slash (c : Char) : Text.isBlank (if c = '-' then '/' else c) = Text.isBlank c := by
  split
  · next h => rw [h]; rfl
  · rfl

theorem partsDate_slash (c : Char) : partsDate (if c = '-' then '/' else c) = partsDate c := by
  split
  · next h => rw [h]; rfl
  · rfl

theorem slashes_slashes (cs : List Char) : slashes (slashes cs) = slashes cs := by
  rw [slashes, slashes, List.map_map]
  refine List.map_congr_left fun c _ => ?_
  rw [Function.comp_apply]
  split
  · rfl
  · rfl

theorem slashes_append (cs rest : List Char) : slashes (cs ++ rest) = slashes cs ++ slashes rest :=
  List.map_append

theorem slashes_reverse (cs : List Char) : slashes cs.reverse = (slashes cs).reverse := List.map_reverse

theorem slashes_of_blank {cs : List Char} (h : ∀ c ∈ cs, Text.isBlank c) : slashes cs = cs := by
  rw [slashes, List.map_congr_left (g := id), List.map_id]
  intro c hc
  refine if_neg ?_
  rintro rfl
  cases h _ hc

theorem trimStart_slashes (cs : List Char) : Text.trimStart (slashes cs) = slashes (Text.trimStart cs) := by
  rw [slashes, Text.trimStart, List.dropWhile_map]
  congr 1
  exact congrArg (List.dropWhile · cs) (funext isBlank_slash)

/-- What the trim leaves of a text that begins with a date, it leaves of it with slashes as well. -/
theorem exists_trim_append (date rest : List Char) : ∃ date' rest', (∀ c ∈ date', c ∈ date) ∧
    Text.trim (date ++ rest) = date' ++ rest' ∧
      Text.trim (slashes date ++ rest) = slashes date' ++ rest' := by
  by_cases hdate : Text.trimStart date = []
  · rw [slashes_of_blank (Text.trimStart_eq_nil.1 hdate)]
    exact ⟨[], Text.trim (date ++ rest), List.forall_mem_nil _, rfl, rfl⟩
  · have hslashes : Text.trimStart (slashes date) ≠ [] := by
      rw [trimStart_slashes, slashes]
      exact mt List.map_eq_nil_iff.1 hdate
    have hsub : ∀ c ∈ Text.trimStart date, c ∈ date := fun c hc => (List.dropWhile_sublist _).subset hc
    rw [Text.trim, Text.trim, Text.trimStart_append hdate, Text.trimStart_append hslashes,
      trimStart_slashes, List.reverse_append, List.reverse_append, ← slashes_reverse]
    by_cases hrest : Text.trimStart rest.reverse = []
    · have hblank (cs : List Char) : Text.trimStart (rest.reverse ++ cs) = Text.trimStart cs :=
        List.dropWhile_append_of_pos (Text.trimStart_eq_nil.1 hrest)
      refine ⟨(Text.trimStart (Text.trimStart date).reverse).reverse, [], fun c hc => hsub c ?_, ?_, ?_⟩
      · exact List.mem_reverse.1 ((List.dropWhile_sublist _).subset (List.mem_reverse.1 hc))
      · rw [hblank, List.append_nil]
      · rw [hblank, List.append_nil, trimStart_slashes, slashes_reverse]
    · refine ⟨Text.trimStart date, (Text.trimStart rest.reverse).reverse, hsub, ?_, ?_⟩
      · rw [Text.trimStart_append hrest, List.reverse_append, List.reverse_reverse]
      · rw [Text.trimStart_append hrest, List.reverse_append, slashes_reverse, List.reverse_reverse]

theorem splitDateTime_slashes {date : List Char} (hparts : ∀ c ∈ date, partsDate c = false)
    (rest : List Char) : splitDateTime (slashes date ++ rest) = splitDateTime (date ++ rest) := by
  obtain ⟨date', rest', hsub, htrim, htrim'⟩ := exists_trim_append date rest
  have hdate : ∀ c ∈ date', (!partsDate c) = true := fun c hc => by rw [hparts c (hsub c hc), Bool.not_false]
  have hslashes : ∀ c ∈ slashes date', (!partsDate c) = true := by
    rw [slashes, List.forall_mem_map]
    intro c hc
    rw [partsDate_slash, hdate c hc]
  have hfirst : slashes (slashes date' ++ rest'.takeWhile (!partsDate ·)) =
      slashes (date' ++ rest'.takeWhile (!partsDate ·)) := by
    rw [slashes_append, slashes_append, slashes_slashes]
  unfold splitDateTime
  dsimp only
  rw [htrim, htrim', List.takeWhile_append_of_pos hdate, List.takeWhile_append_of_pos hslashes,
    List.dropWhile_append_of_pos hdate, List.dropWhile_append_of_pos hslashes]
  cases rest'.dropWhile (!partsDate ·) with
  | nil => exact congrArg (·, none) hfirst
  | cons c time => exact congrArg (·, some (Text.trim time)) hfirst

/-- `/` for `-` in the date, blanks in front of it aside. -/
theorem readAlike_slashes {front date : List Char} (hfront : ∀ c ∈ front, Text.isBlank c)
    (hparts : ∀ c ∈ date, partsDate c = false) (rest : List Char) :
    ReadAlike (String.ofList (front ++ date ++ rest)) (String.ofList (front ++ slashes date ++ rest)) := by
  have hsplit (cs : List Char) : splitDateTime (front ++ cs) = splitDateTime cs := by
    have htrim : Text.trim (front ++ cs) = Text.trim cs := by
      have hsurround := Text.trim_surround cs hfront (List.forall_mem_nil _)
      rwa [List.append_nil] at hsurround
    unfold splitDateTime
    rw [htrim]
  apply readAlike_of_split
  rw [String.toList_ofList, String.toList_ofList, List.append_assoc, List.append_assoc, hsplit, hsplit,
    splitDateTime_slashes hparts]

/-! ### The mark between date and time -/

/-- One mark for another between the date and the time of a trimmed text, blanks around it aside. -/
theorem readAlike_mark {front date time back : List Char} {mark mark' : Char}
    (hfront : ∀ c ∈ front, Text.isBlank c) (hback : ∀ c ∈ back, Text.isBlank c)
    (hparts : ∀ c ∈ date, partsDate c = false) (hmark : partsDate mark = true)
    (hmark' : partsDate mark' = true) (hdate : date ≠ []) (htime : time ≠ [])
    (htrim : Text.trim (date ++ mark :: time) = date ++ mark :: time) :
    ReadAlike (String.ofList (front ++ (date ++ mark :: time) ++ back))
      (String.ofList (front ++ (date ++ mark' :: time) ++ back)) := by
  obtain ⟨d, ds, rfl⟩ := List.exists_cons_of_ne_nil hdate
  have hhead := Text.head?_trim (d :: ds ++ mark :: time)
  have hlast := Text.getLast?_trim (d :: ds ++ mark :: time)
  rw [htrim] at hhead hlast
  have htrim' : Text.trim (d :: ds ++ mark' :: time) = d :: ds ++ mark' :: time := by
    refine Text.trim_eq_self hhead fun c hc => hlast c ?_
    rw [List.getLast?_append, List.getLast?_cons, List.getLast?_eq_some_getLast htime] at hc ⊢
    exact hc
  apply readAlike_of_split
  rw [String.toList_ofList, String.toList_ofList,
    splitDateTime_of_parted hparts hmark ((Text.trim_surround _ hfront hback).trans htrim),
    splitDateTime_of_parted hparts hmark' ((Text.trim_surround _ hfront hback).trans htrim')]

/-! ## The readers together -/

theorem partsDate_of_not_mem {cs : List Char} (hblank : ' ' ∉ cs) (hmark : 'T' ∉ cs) :
    ∀ c ∈ cs, partsDate c = false := by
  intro c hc
  rw [partsDate, Bool.or_eq_false_iff, decide_eq_false_iff_not, decide_eq_false_iff_not]
  exact ⟨fun h => hblank (h ▸ hc), fun h => hmark (h ▸ hc)⟩

/-- **The two readers of dates agree.** A text that is read as a date and as a date-time has one date. A
text without a blank or a `T`, apart from blanks around it, is a date-time exactly if it is a date, and
then at midnight. Neither reader tells `-` from `/` anywhere in front of the first blank or `T`, nor that
`T` from a blank if the trimmed text goes on at both sides of it. -/
theorem dateReaders_agree (s : String) :
    (∀ d t, readDate? s = some d → readDateTime? s = some t → t.date = d) ∧
    (' ' ∉ Text.trim s.toList → 'T' ∉ Text.trim s.toList →
      readDateTime? s = (readDate? s).map fun d => ⟨d, .midnight⟩) ∧
    (∀ front date rest, s.toList = front ++ date ++ rest → (∀ c ∈ front, Text.isBlank c) →
      ' ' ∉ date → 'T' ∉ date → ReadAlike s (String.ofList (front ++ slashes date ++ rest))) ∧
    ∀ front date time back, s.toList = front ++ (date ++ 'T' :: time) ++ back →
      (∀ c ∈ front, Text.isBlank c) → (∀ c ∈ back, Text.isBlank c) →
      Text.trim s.toList = date ++ 'T' :: time → ' ' ∉ date → 'T' ∉ date → date ≠ [] → time ≠ [] →
        ReadAlike s (String.ofList (front ++ (date ++ ' ' :: time) ++ back)) := by
  refine ⟨fun d t => date_of_readDateTime?, fun hblank hmark => ?_, ?_, ?_⟩
  · exact readDateTime?_of_bare (partsDate_of_not_mem hblank hmark)
  · intro front date rest hs hfront hblank hmark
    have h := readAlike_slashes hfront (partsDate_of_not_mem hblank hmark) rest
    rwa [← hs, String.ofList_toList] at h
  · intro front date time back hs hfront hback htrim hblank hmark hdate htime
    rw [hs, Text.trim_surround _ hfront hback] at htrim
    have h := readAlike_mark hfront hback (partsDate_of_not_mem hblank hmark) (by decide)
      (by decide : partsDate ' ' = true) hdate htime htrim
    rwa [← hs, String.ofList_toList] at h

/-- A date and a time with blanks of other kinds around them and one behind the `T`, and a bare date. -/
theorem dateReaders_agree_march :
    let s := "\t2024-3-9T 14:05\n"
    let d : Date := ⟨2024, 3, 9, by decide⟩
    let t : DateTime := ⟨d, 14, 5, 0, 0, by decide⟩
    (readDate? s = some d ∧ readDateTime? s = some t ∧ t.date = d) ∧
    (' ' ∉ Text.trim " 2024-3-9".toList ∧ 'T' ∉ Text.trim " 2024-3-9".toList ∧
      readDateTime? " 2024-3-9" = (readDate? " 2024-3-9").map fun d => ⟨d, .midnight⟩) ∧
    ReadAlike s "\t2024/3/9T 14:05\n" ∧ ReadAlike s "\t2024-3-9  14:05\n" := by
  intro s d t
  obtain ⟨hdate, _, hslashes, hmark⟩ := dateReaders_agree s
  have hread : readDate? s = some d := by decide
  have hread' : readDateTime? s = some t := by decide
  have hblank : ' ' ∉ Text.trim " 2024-3-9".toList := by decide
  have hbare : 'T' ∉ Text.trim " 2024-3-9".toList := by decide
  refine ⟨⟨hread, hread', hdate d t hread hread'⟩,
    ⟨hblank, hbare, (dateReaders_agree " 2024-3-9").2.1 hblank hbare⟩, ?_, ?_⟩
  · exact hslashes ['\t'] "2024-3-9".toList "T 14:05\n".toList (by decide)
      (List.forall_mem_singleton.2 rfl) (by decide) (by decide)
  · exact hmark ['\t'] "2024-3-9".toList " 14:05".toList ['\n'] (by decide)
      (List.forall_mem_singleton.2 rfl) (List.forall_mem_singleton.2 rfl) (by decide) (by decide) (by decide)
      (by decide) (by decide)

end KeyedRows
