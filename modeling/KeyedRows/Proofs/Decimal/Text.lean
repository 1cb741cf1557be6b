import KeyedRows.Decimal.Text
import KeyedRows.Proofs.Text.Number

/-!
# Decimals read back

* `ofScaled_eq_self`, `scale_ofScaled_le` : a decimal is the decimal of its own mantissa and scale, and one
  in lowest terms has no larger scale;
* `mem_render` : the characters of a text;
* `readUnsigned?_unsignedChars` : digits with a point among them;
* `readChars?_render`, `readChars?_toChars` : the text of a mantissa reads as it is, and so that of a decimal, if
  the scale can be read;
* `scale_lt_of_readChars?` : no text reads as a decimal of the largest scale;
* `toString_ofInt64` : a whole number has the text of an integer.
-/

namespace KeyedRows.Decimal

/-! ## Lowest terms -/

theorem strip_of_reduced {m : Int} {s : Nat} (h : s = 0 ∨ m % 10 ≠ 0) : strip m s = (m, s) := by
  cases s with
  | zero => rfl
  | succ s => rw [strip, if_neg (h.resolve_left (by omega))]

theorem ofScaled_eq_self (d : Decimal) (h : d.scale ≤ maxScale) : ofScaled d.mantissa d.scale h = d := by
  obtain ⟨m, s, hs, hreduced⟩ := d
  unfold ofScaled
  by_cases hm : m = 0
  · have hscale : s = 0 := hreduced.resolve_right (by simp [hm])
    subst hm hscale
    rfl
  · rw [if_neg hm]
    congr 1 <;> rw [strip_of_reduced hreduced]

theorem scale_ofScaled_le {m : Int} {s : Nat} (h : s ≤ maxScale) : (ofScaled m s h).scale ≤ s := by
  unfold ofScaled
  split
  · exact Nat.zero_le s
  · exact strip_snd_le m s

/-! ## Text -/

theorem lt_length_digits (m : Int) (s : Nat) : s < (Text.padded (s + 1) m.natAbs).length :=
  Text.le_length_padded (s + 1) m.natAbs

def unsignedChars (m : Int) (s : Nat) : List Char :=
  let digits := Text.padded (s + 1) m.natAbs
  let whole := digits.length - s
  if s = 0 then digits else digits.take whole ++ '.' :: digits.drop whole

theorem render_eq (m : Int) (s : Nat) :
    render m s = (if m < 0 then ['-'] else []) ++ unsignedChars m s := rfl

theorem mem_unsignedChars {m : Int} {s : Nat} {c : Char} (h : c ∈ unsignedChars m s) :
    c.isDigit ∨ c = '.' := by
  unfold unsignedChars at h
  dsimp only at h
  split at h
  · exact .inl (Text.isDigit_of_mem_padded h)
  · rcases List.mem_append.1 h with h | h
    · exact .inl (Text.isDigit_of_mem_padded (List.mem_of_mem_take h))
    · rcases List.mem_cons.1 h with rfl | h
      · exact .inr rfl
      · exact .inl (Text.isDigit_of_mem_padded (List.mem_of_mem_drop h))

theorem unsignedChars_cons (m : Int) (s : Nat) :
    ∃ c cs, unsignedChars m s = c :: cs ∧ c.isDigit := by
  have hlength := lt_length_digits m s
  obtain ⟨c, cs, hcs⟩ := List.exists_cons_of_ne_nil (Text.padded_ne_nil (s + 1) m.natAbs)
  have hc : c.isDigit := Text.isDigit_of_mem_padded (by rw [hcs]; exact List.mem_cons_self)
  unfold unsignedChars
  dsimp only
  split
  · exact ⟨c, cs, hcs, hc⟩
  · obtain ⟨n, hn⟩ : ∃ n, (Text.padded (s + 1) m.natAbs).length - s = n + 1 :=
      ⟨(Text.padded (s + 1) m.natAbs).length - s - 1, by omega⟩
    rw [hn, hcs]
    exact ⟨c, _, rfl, hc⟩

theorem mem_render {m : Int} {s : Nat} {c : Char} (h : c ∈ render m s) :
    c.isDigit ∨ c = '.' ∨ c = '-' := by
  rw [render_eq, List.mem_append] at h
  rcases h with h | h
  · split at h
    · exact .inr (.inr (List.mem_singleton.1 h))
    · cases h
  · exact (mem_unsignedChars h).imp_right .inl

theorem isBlank_of_mem_render {m : Int} {s : Nat} {c : Char} (h : c ∈ render m s) :
    Text.isBlank c = false := by
  rcases mem_render h with hdigit | rfl | rfl
  · exact Text.isBlank_of_isDigit hdigit
  · rfl
  · rfl

theorem splitSign_of_isDigit {c : Char} {cs : List Char} (h : c.isDigit) :
    Text.splitSign (c :: cs) = (false, c :: cs) := by
  unfold Text.splitSign
  split
  · cases ‹_ :: _ = _›; cases h
  · cases ‹_ :: _ = _›; cases h
  · rfl

theorem splitSign_render (m : Int) (s : Nat) :
    Text.splitSign (render m s) = (decide (m < 0), unsignedChars m s) := by
  rw [render_eq]
  by_cases hm : m < 0
  · rw [if_pos hm, decide_eq_true hm]
    rfl
  · obtain ⟨c, cs, hcs, hc⟩ := unsignedChars_cons m s
    rw [if_neg hm, decide_eq_false hm, List.nil_append, hcs, splitSign_of_isDigit hc]

theorem splitPoint_append {cs rest : List Char} (h : ∀ c ∈ cs, c.isDigit)
    (hrest : ∀ c ∈ rest.head?, c = '.') : splitPoint (cs ++ rest) = (cs, rest.drop 1) := by
  have hpoint : ∀ c ∈ cs, decide (c ≠ '.') = true := by
    intro c hc
    have hdigit := h c hc
    rw [decide_eq_true_eq]
    rintro rfl
    cases hdigit
  have hstop : ∀ c ∈ rest.head?, decide (c ≠ '.') = false := fun c hc => by simp [hrest c hc]
  rw [splitPoint, Text.takeWhile_append_of_head? hpoint hstop,
    Text.dropWhile_append_of_head? hpoint hstop]

theorem readUnsigned?_unsignedChars (m : Int) (s : Nat) :
    readUnsigned? (unsignedChars m s) = some (m.natAbs, s) := by
  have hdigits : ∀ c ∈ Text.padded (s + 1) m.natAbs, c.isDigit := fun _ => Text.isDigit_of_mem_padded
  have hlength := lt_length_digits m s
  unfold readUnsigned? unsignedChars
  dsimp only
  split
  · next hs =>
    subst hs
    have hsplit := splitPoint_append hdigits (by simp : ∀ c ∈ [].head?, c = '.')
    rw [List.append_nil] at hsplit
    simp [hsplit, Text.natural?_padded]
  · rw [splitPoint_append (fun c hc => hdigits c (List.mem_of_mem_take hc)) (by simp)]
    simp only [List.drop_one, List.tail_cons, List.take_append_drop, Text.natural?_padded,
      Option.map_some, List.length_drop]
    congr 2
    omega

theorem signed_natAbs (m : Int) : Text.signed (decide (m < 0)) m.natAbs = m := by
  unfold Text.signed
  split
  · next h => simp only [decide_eq_true_eq] at h; omega
  · next h => simp only [decide_eq_true_eq] at h; omega

/-- The text of a mantissa reads as the mantissa at its scale, as long as that is below the largest. -/
theorem readChars?_render (m : Int) (s : Nat) : readChars? (render m s) =
    if h : s < maxScale then some (ofScaled m s (Nat.le_of_lt h)) else none := by
  have htrim : Text.trim (render m s) = render m s := Text.trim_of_all fun _ => isBlank_of_mem_render
  rw [readChars?, htrim, splitSign_render]
  simp only [readUnsigned?_unsignedChars, Option.bind_some, signed_natAbs]

theorem readChars?_toChars (d : Decimal) :
    readChars? d.toChars = if d.scale < maxScale then some d else none := by
  rw [toChars, readChars?_render]
  simp only [ofScaled_eq_self, dite_eq_ite]

theorem toList_toString (d : Decimal) : (toString d).toList = d.toChars := String.toList_ofList

theorem read?_toString (d : Decimal) :
    read? (toString d) = if d.scale < maxScale then some d else none := by
  rw [read?, toList_toString, readChars?_toChars]

theorem isSome_read?_toString {d : Decimal} (h : d.scale < maxScale) :
    (read? (toString d)).isSome = true := by
  rw [read?_toString, if_pos h]
  rfl

/-- A text spells fewer digits after the point than a decimal may keep. -/
theorem scale_lt_of_readChars? {cs : List Char} {d : Decimal} (h : readChars? cs = some d) :
    d.scale < maxScale := by
  obtain ⟨⟨n, s⟩, _, h⟩ := Option.bind_eq_some_iff.1 h
  dsimp only at h
  split at h
  · next hs =>
    cases h
    exact Nat.lt_of_le_of_lt (scale_ofScaled_le _) hs
  · cases h

/-! ## Whole numbers -/

theorem mantissa_ofInt64 (i : Int64) : (ofInt64 i).mantissa = i.toInt ∧ (ofInt64 i).scale = 0 := by
  unfold ofInt64 ofMantissa
  by_cases hi : i.toInt = 0
  · rw [if_pos hi, hi]
    exact ⟨rfl, rfl⟩
  · rw [if_neg hi, if_neg (by decide)]
    unfold ofScaled
    rw [if_neg hi]
    exact ⟨rfl, rfl⟩

theorem scale_ofInt64_lt (i : Int64) : (ofInt64 i).scale < maxScale := by
  rw [(mantissa_ofInt64 i).2]
  decide

theorem toString_ofInt64 (i : Int64) : toString (ofInt64 i) = toString i.toInt := by
  obtain ⟨hm, hs⟩ := mantissa_ofInt64 i
  show String.ofList (render (ofInt64 i).mantissa (ofInt64 i).scale) = _
  have hdigits : unsignedChars i.toInt 0 = Nat.toDigits 10 i.toInt.natAbs := Text.padded_one _
  rw [hm, hs, render_eq, hdigits, Int.toString_eq_repr, Int.repr_eq_if]
  by_cases hi : i.toInt < 0
  · have hnat : (-i.toInt).toNat = i.toInt.natAbs := by omega
    rw [if_pos hi, if_neg (by omega), hnat, Nat.repr_eq_ofList_toDigits, String.ofList_append]
  · have hnat : i.toInt.toNat = i.toInt.natAbs := by omega
    rw [if_neg hi, if_pos (by omega), hnat, Nat.repr_eq_ofList_toDigits, List.nil_append]

end KeyedRows.Decimal
