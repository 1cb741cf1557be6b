import KeyedRows.Json.Parser
import KeyedRows.Proofs.Outcome
import KeyedRows.Proofs.Text.Number

/-!
# Every document has a text

* `Json.quoteChar`, `Json.stringToken?_quoteChars` : a string is read up to its quote, whatever its characters;
* `Json.Token.chars`, `Json.token?_chars` : a token is read as it is written;
* `Json.toTokens`, `Json.render` : the tokens and the text of a document;
* `Json.value?_toTokens`, `Json.parse?_render` : they are read as the document;
* `Json.parse?_quoted` : plain characters in quotes are a document.

The text of a document is the shortest one: without blanks, and with an escape only where a string needs
one. A number ends where the next character is none of its own, which the token after it sees to.
-/

namespace KeyedRows.Json

/-! ## Strings -/

/-- A character as it stands in a string. -/
def quoteChar (c : Char) : List Char :=
  if c = '"' ∨ c = '\\' then ['\\', c]
  else if c.toNat < 0x20 then
    ['\\', 'u', '0', '0', (c.toNat / 16).digitChar, (c.toNat % 16).digitChar]
  else [c]

/-- No character is half of a surrogate pair. -/
theorem isHigh_or_isLow_toNat (c : Char) : (isHigh c.toNat || isLow c.toNat) = false := by
  have hvalid : c.toNat < 0xd800 ∨ 0xdfff < c.toNat ∧ c.toNat < 0x110000 := c.valid
  rw [isHigh, isLow, Bool.eq_false_iff]
  simp only [ne_eq, Bool.or_eq_true, Bool.and_eq_true, decide_eq_true_eq]
  omega

theorem pairSurrogates?_map (cs : List Char) : pairSurrogates? (cs.map Char.toNat) = some cs := by
  induction cs with
  | nil => rfl
  | cons c cs ih =>
    have hc := isHigh_or_isLow_toNat c
    cases cs with
    | nil => rw [List.map_singleton, pairSurrogates?, hc, if_neg Bool.false_ne_true, Char.ofNat_toNat]
    | cons d cs =>
      obtain ⟨hhigh, hlow⟩ := Bool.or_eq_false_iff.1 hc
      rw [List.map_cons, List.map_cons, pairSurrogates?, if_neg (by rw [hhigh]; exact Bool.false_ne_true),
        if_neg (by rw [hlow]; exact Bool.false_ne_true), ← List.map_cons, ih, Option.map_some,
        Char.ofNat_toNat]

/-- A character that stands for itself in a string. -/
def Plain (c : Char) : Prop := 0x20 ≤ c.toNat ∧ c ≠ '"' ∧ c ≠ '\\'

theorem quoteChar_of_plain {c : Char} (h : Plain c) : quoteChar c = [c] := by
  rw [quoteChar, if_neg (not_or.2 h.2), if_neg (Nat.not_lt.2 h.1)]

theorem stringBody?_plain {c : Char} (h : Plain c) (cs : List Char) :
    stringBody? (c :: cs) = (stringBody? cs).map fun (units, rest) => (c.toNat :: units, rest) := by
  obtain ⟨hlow, hquote, hslash⟩ := h
  rw [stringBody?.eq_def]
  split
  · next heq => exact absurd (List.cons.inj heq).1 hquote
  · next heq => exact absurd (List.cons.inj heq).1 hslash
  · next heq => exact absurd (List.cons.inj heq).1 hslash
  · next heq =>
    obtain ⟨rfl, rfl⟩ := List.cons.inj heq
    exact if_neg fun h => h.elim (Nat.not_lt.2 hlow) hslash
  · next heq => cases heq

theorem stringBody?_quoteChar (c : Char) (cs : List Char) :
    stringBody? (quoteChar c ++ cs) =
      (stringBody? cs).map fun (units, rest) => (c.toNat :: units, rest) := by
  unfold quoteChar
  split
  · next hmark =>
    rcases hmark with rfl | rfl
    · show (stringBody? cs).bind _ = _
      cases stringBody? cs <;> rfl
    · show (stringBody? cs).bind _ = _
      cases stringBody? cs <;> rfl
  · next hmark =>
    split
    · next hlow =>
      have hcode : ∀ n < 0x20, codeUnit? '0' '0' (n / 16).digitChar (n % 16).digitChar = some n := by
        decide
      show stringBody? ('\\' :: 'u' :: '0' :: '0' :: _ :: _ :: cs) = _
      rw [stringBody?, hcode c.toNat hlow]
      cases stringBody? cs <;> rfl
    · next hlow => exact stringBody?_plain ⟨Nat.not_lt.1 hlow, not_or.1 hmark⟩ cs

theorem stringToken?_quoteChars (s rest : List Char) :
    stringToken? (s.flatMap quoteChar ++ '"' :: rest) = some (.text (String.ofList s), rest) := by
  have hbody : stringBody? (s.flatMap quoteChar ++ '"' :: rest) = some (s.map Char.toNat, rest) := by
    induction s with
    | nil => rfl
    | cons c s ih =>
      rw [List.flatMap_cons, List.append_assoc, stringBody?_quoteChar, ih]
      rfl
  rw [stringToken?, hbody, Option.map_some]
  simp only [pairSurrogates?_map]

/-! ## Tokens -/

namespace Token

/-- A token as it is written. What the tree does not tell apart has one text for all of it: minus zero for a
number of another kind, and half of a surrogate pair for what cannot be read. -/
def chars : Token → List Char
  | openArray => ['[']
  | closeArray => [']']
  | openObject => ['\x7b']
  | closeObject => ['\x7d']
  | comma => [',']
  | colon => [':']
  | null => ['n', 'u', 'l', 'l']
  | bool true => ['t', 'r', 'u', 'e']
  | bool false => ['f', 'a', 'l', 's', 'e']
  | int n => if n < 0 then '-' :: Nat.toDigits 10 n.natAbs else Nat.toDigits 10 n.natAbs
  | real => ['-', '0']
  | text s => '"' :: (s.toList.flatMap quoteChar ++ ['"'])
  | unpaired => ['"', '\\', 'u', 'd', '8', '0', '0', '"']

end Token

/-- No number goes on with these characters. -/
def EndsNumber (cs : List Char) : Prop :=
  ∀ c ∈ cs.head?, c.isDigit = false ∧ c ≠ '.' ∧ c ≠ 'e' ∧ c ≠ 'E'

theorem unsigned?_toDigits (negative : Bool) (n : Nat) {rest : List Char} (h : EndsNumber rest) :
    unsigned? negative (Nat.toDigits 10 n ++ rest) =
      some (if negative && n = 0 then .real else .int (if negative then -n else n), rest) := by
  have hdigits : digits? (Nat.toDigits 10 n ++ rest) = some (Nat.toDigits 10 n, rest) := by
    have hall : ∀ c ∈ Nat.toDigits 10 n, c.isDigit := fun c => Text.isDigit_of_mem_toDigits
    have hrest : ∀ c ∈ rest.head?, c.isDigit = false := fun c hc => (h c hc).1
    rw [digits?, Text.takeWhile_append_of_head? hall hrest, Text.dropWhile_append_of_head? hall hrest,
      if_neg Nat.toDigits_ne_nil]
  have hzero : ¬((Nat.toDigits 10 n).head? = some '0' ∧ (Nat.toDigits 10 n).length ≠ 1) := by
    rintro ⟨hhead, hlength⟩
    cases n with
    | zero => exact hlength rfl
    | succ n => exact Text.head?_toDigits n.succ_pos hhead
  have hfraction : skipFraction? rest = some (false, rest) := by
    rw [skipFraction?.eq_def]
    split
    · next cs => exact absurd rfl (h '.' rfl).2.1
    · rfl
  have hexponent : skipExponent? rest = some (false, rest) := by
    cases rest with
    | nil => rfl
    | cons c cs =>
      obtain ⟨_, _, he, hE⟩ := h c rfl
      exact if_neg (not_or.2 ⟨he, hE⟩)
  rw [unsigned?, hdigits]
  show (if _ then none else _) = _
  rw [if_neg hzero, hfraction]
  show (skipExponent? rest).bind _ = _
  rw [hexponent, Nat.ofDigitChars_ten_toDigits]
  rfl

theorem token?_of_isDigit {c : Char} (h : c.isDigit) (cs : List Char) :
    token? c cs = unsigned? false (c :: cs) := by
  rw [token?.eq_def]
  split <;> first | rfl | cases h

theorem isSpace_of_isDigit {c : Char} (h : c.isDigit) : isSpace c = false := by
  rw [Bool.eq_false_iff]
  intro hspace
  simp only [isSpace, Bool.or_eq_true, decide_eq_true_eq] at hspace
  rcases hspace with ((rfl | rfl) | rfl) | rfl <;> cases h

/-- Where a number stands before them, its end is marked. -/
def Token.Precedes (t : Token) (cs : List Char) : Prop := (∃ n, t = .int n) ∨ t = .real → EndsNumber cs

theorem token?_chars {t : Token} {rest : List Char} (h : t.Precedes rest) :
    ∃ c cs, t.chars = c :: cs ∧ isSpace c = false ∧ token? c (cs ++ rest) = some (t, rest) := by
  cases t with
  | openArray | closeArray | openObject | closeObject | comma | colon | null | unpaired =>
    exact ⟨_, _, rfl, rfl, rfl⟩
  | bool b => cases b <;> exact ⟨_, _, rfl, rfl, rfl⟩
  | text s =>
    refine ⟨'"', s.toList.flatMap quoteChar ++ ['"'], rfl, rfl, ?_⟩
    show stringToken? _ = _
    rw [List.append_assoc, List.singleton_append, stringToken?_quoteChars, String.ofList_toList]
  | real => exact ⟨'-', ['0'], rfl, rfl, unsigned?_toDigits true 0 (h (.inr rfl))⟩
  | int n =>
    have hends := h (.inl ⟨n, rfl⟩)
    rw [Token.chars]
    by_cases hneg : n < 0
    · rw [if_pos hneg]
      refine ⟨'-', _, rfl, rfl, ?_⟩
      show unsigned? true (Nat.toDigits 10 n.natAbs ++ rest) = _
      have hzero : n.natAbs ≠ 0 := by omega
      have hsign : -(n.natAbs : Int) = n := by omega
      rw [unsigned?_toDigits true n.natAbs hends, Bool.true_and, decide_eq_false hzero,
        if_neg Bool.false_ne_true, if_pos rfl, hsign]
    · rw [if_neg hneg]
      obtain ⟨c, cs, hcs⟩ := List.exists_cons_of_ne_nil (Nat.toDigits_ne_nil (n := n.natAbs) (b := 10))
      have hc : c.isDigit := Text.isDigit_of_mem_toDigits (hcs ▸ List.mem_cons_self)
      have hsign : (n.natAbs : Int) = n := by omega
      refine ⟨c, cs, hcs, isSpace_of_isDigit hc, ?_⟩
      rw [token?_of_isDigit hc, ← List.cons_append, ← hcs, unsigned?_toDigits false n.natAbs hends,
        Bool.false_and, if_neg Bool.false_ne_true, if_neg Bool.false_ne_true, hsign]

def printed (ts : List Token) : List Char := ts.flatMap Token.chars

/-- Every number ends where the token after it begins. -/
def Separated : List Token → Prop
  | [] => True
  | t :: ts => t.Precedes (printed ts) ∧ Separated ts

theorem tokensWithin?_printed {ts : List Token} (h : Separated ts) {n : Nat}
    (hn : (printed ts).length ≤ n) : tokensWithin? n (printed ts) = some ts := by
  induction ts generalizing n with
  | nil => cases n <;> rfl
  | cons t ts ih =>
    obtain ⟨c, cs, hcs, hspace, htoken⟩ := token?_chars h.1
    have hprinted : printed (t :: ts) = c :: (cs ++ printed ts) := by
      rw [printed, List.flatMap_cons, hcs]
      rfl
    rw [hprinted] at hn ⊢
    cases n with
    | zero => cases hn
    | succ n =>
      have hrest : (printed ts).length ≤ n := by
        rw [List.length_cons, List.length_append] at hn
        omega
      rw [tokensWithin?, if_neg (ne_true_of_eq_false hspace), htoken, Option.bind_some]
      exact congrArg (Option.map _) (ih h.2 hrest)

theorem tokens?_printed {ts : List Token} (h : Separated ts) : tokens? (printed ts) = some ts :=
  tokensWithin?_printed h (Nat.le_refl _)

/-! ## Values -/

/-- Induction on a document, through the members of its arrays and objects. -/
theorem induct {P : Json → Prop} (null : P null) (bool : ∀ b, P (bool b)) (int : ∀ n, P (int n))
    (real : P real) (text : ∀ s, P (text s)) (array : ∀ xs, (∀ x ∈ xs, P x) → P (array xs))
    (object : ∀ fields, (∀ f ∈ fields, P f.2) → P (object fields)) (unpaired : P unpaired) (j : Json) :
    P j := by
  refine @Json.rec P (fun xs => ∀ x ∈ xs, P x) (fun fields => ∀ f ∈ fields, P f.2) (fun f => P f.2)
    null bool int real text array object unpaired ?_ ?_ ?_ ?_ ?_ j
  · exact fun x hx => nomatch hx
  · exact fun x xs hx hxs => List.forall_mem_cons.2 ⟨hx, hxs⟩
  · exact fun f hf => nomatch hf
  · exact fun f fields hf hfields => List.forall_mem_cons.2 ⟨hf, hfields⟩
  · exact fun _ _ h => h

mutual

def toTokens : Json → List Token
  | null => [.null]
  | bool b => [.bool b]
  | int n => [.int n]
  | real => [.real]
  | text s => [.text s]
  | array xs => .openArray :: elementTokens xs
  | object fields => .openObject :: memberTokens fields
  | unpaired => [.unpaired]

def elementTokens : List Json → List Token
  | [] => [.closeArray]
  | [x] => x.toTokens ++ [.closeArray]
  | x :: y :: xs => x.toTokens ++ .comma :: elementTokens (y :: xs)

def memberTokens : List (String × Json) → List Token
  | [] => [.closeObject]
  | [(name, x)] => .text name :: .colon :: (x.toTokens ++ [.closeObject])
  | (name, x) :: f :: fields => .text name :: .colon :: (x.toTokens ++ .comma :: memberTokens (f :: fields))

end

/-- The text of a document, without blanks. -/
def render (j : Json) : String := String.ofList (printed j.toTokens)

/-- Separate tokens that may follow a number. -/
def Closes (ts : List Token) : Prop := EndsNumber (printed ts) ∧ Separated ts

theorem separated_elementTokens {xs : List Json} {ts : List Token}
    (hxs : ∀ x ∈ xs, ∀ ts, Closes ts → Separated (x.toTokens ++ ts)) (h : Separated ts) :
    Separated (elementTokens xs ++ ts) := by
  induction xs with
  | nil => exact ⟨by simp [Token.Precedes], h⟩
  | cons x xs ih =>
    have hx := hxs x List.mem_cons_self
    have hrest := ih fun y hy => hxs y (List.mem_cons_of_mem x hy)
    cases xs with
    | nil =>
      rw [elementTokens, List.append_assoc]
      exact hx _ ⟨by simp [EndsNumber, printed, Token.chars], hrest⟩
    | cons y xs =>
      rw [elementTokens, List.append_assoc]
      exact hx _ ⟨by simp [EndsNumber, printed, Token.chars], by simp [Token.Precedes], hrest⟩

theorem separated_memberTokens {fields : List (String × Json)} {ts : List Token}
    (hfields : ∀ f ∈ fields, ∀ ts, Closes ts → Separated (f.2.toTokens ++ ts)) (h : Separated ts) :
    Separated (memberTokens fields ++ ts) := by
  induction fields with
  | nil => exact ⟨by simp [Token.Precedes], h⟩
  | cons f fields ih =>
    have hf := hfields f List.mem_cons_self
    have hrest := ih fun g hg => hfields g (List.mem_cons_of_mem f hg)
    cases fields with
    | nil =>
      rw [memberTokens, List.cons_append, List.cons_append, List.append_assoc]
      refine ⟨by simp [Token.Precedes], by simp [Token.Precedes], hf _ ⟨?_, hrest⟩⟩
      simp [EndsNumber, printed, Token.chars]
    | cons g fields =>
      rw [memberTokens, List.cons_append, List.cons_append, List.append_assoc]
      refine ⟨by simp [Token.Precedes], by simp [Token.Precedes], hf _ ⟨?_, ?_, hrest⟩⟩
      · simp [EndsNumber, printed, Token.chars]
      · simp [Token.Precedes]

theorem separated_toTokens (j : Json) : ∀ ts, Closes ts → Separated (j.toTokens ++ ts) := by
  induction j using induct with
  | null | bool | text | unpaired => exact fun ts h => ⟨by simp [Token.Precedes], h.2⟩
  | int | real => exact fun ts h => ⟨fun _ => h.1, h.2⟩
  | array xs ih => exact fun ts h => ⟨by simp [Token.Precedes], separated_elementTokens ih h.2⟩
  | object fields ih => exact fun ts h => ⟨by simp [Token.Precedes], separated_memberTokens ih h.2⟩

theorem elements?_elementTokens {xs : List Json} (hxs : ∀ x ∈ xs, ∀ n rest,
      2 * x.toTokens.length ≤ n → value? n (x.toTokens ++ rest) = some (x, rest)) (hne : xs ≠ [])
    (n : Nat) (rest : List Token) (hn : 2 * (elementTokens xs).length ≤ n) :
    elements? n (elementTokens xs ++ rest) = some (xs, rest) := by
  induction xs generalizing n with
  | nil => exact absurd rfl hne
  | cons x xs ih =>
    have hx := hxs x List.mem_cons_self
    cases xs with
    | nil =>
      rw [elementTokens, List.length_append, List.length_singleton] at hn
      obtain ⟨n, rfl⟩ := Nat.exists_eq_add_one.2 (by omega : 0 < n)
      rw [elementTokens, List.append_assoc, elements?, hx n _ (by omega)]
      rfl
    | cons y xs =>
      rw [elementTokens, List.length_append, List.length_cons] at hn
      obtain ⟨n, rfl⟩ := Nat.exists_eq_add_one.2 (by omega : 0 < n)
      have hrest := ih (fun y hy => hxs y (List.mem_cons_of_mem x hy)) (List.cons_ne_nil y xs) n (by omega)
      rw [elementTokens, List.append_assoc, elements?, hx n _ (by omega)]
      exact congrArg (Option.map _) hrest

theorem members?_memberTokens {fields : List (String × Json)} (hfields : ∀ f ∈ fields, ∀ n rest,
      2 * f.2.toTokens.length ≤ n → value? n (f.2.toTokens ++ rest) = some (f.2, rest)) (hne : fields ≠ [])
    (n : Nat) (rest : List Token) (hn : 2 * (memberTokens fields).length ≤ n) :
    members? n (memberTokens fields ++ rest) = some (fields.map fun f => (some f.1, f.2), rest) := by
  induction fields generalizing n with
  | nil => exact absurd rfl hne
  | cons f fields ih =>
    have hf := hfields f List.mem_cons_self
    cases fields with
    | nil =>
      rw [memberTokens, List.length_cons, List.length_cons, List.length_append] at hn
      obtain ⟨n, rfl⟩ := Nat.exists_eq_add_one.2 (by omega : 0 < n)
      rw [memberTokens, List.cons_append, List.cons_append, List.append_assoc, members?,
        hf n _ (by omega)]
      rfl
    | cons g fields =>
      rw [memberTokens, List.length_cons, List.length_cons, List.length_append, List.length_cons] at hn
      obtain ⟨n, rfl⟩ := Nat.exists_eq_add_one.2 (by omega : 0 < n)
      have hrest := ih (fun g hg => hfields g (List.mem_cons_of_mem f hg)) (List.cons_ne_nil g fields) n
        (by omega)
      rw [memberTokens, List.cons_append, List.cons_append, List.append_assoc, members?,
        hf n _ (by omega)]
      exact congrArg (Option.map _) hrest

theorem ofFields_map (fields : List (String × Json)) :
    ofFields (fields.map fun f => (some f.1, f.2)) = object fields := by
  have hnames : (fields.map fun f => (some f.1, f.2)).mapM (fun f => f.1.map fun name => (name, f.2)) =
      some fields :=
    mapM_eq_some.2 (List.forall₂_map_left_iff.2 (List.forall₂_same.2 fun _ _ => rfl))
  rw [ofFields, hnames]

theorem elementTokens_ne (x : Json) (xs : List Json) (rest rest' : List Token) :
    elementTokens (x :: xs) ++ rest ≠ .closeArray :: rest' := by
  cases xs with
  | nil => cases x <;> exact fun h => Token.noConfusion (List.cons.inj h).1
  | cons y xs => cases x <;> exact fun h => Token.noConfusion (List.cons.inj h).1

theorem memberTokens_ne (f : String × Json) (fields : List (String × Json)) (rest rest' : List Token) :
    memberTokens (f :: fields) ++ rest ≠ .closeObject :: rest' := by
  cases fields <;> exact fun h => Token.noConfusion (List.cons.inj h).1

/-- Two steps for each token are enough to read a document off its tokens, as each value is read in a step and
each place in a list in another. -/
theorem value?_toTokens (j : Json) : ∀ n rest, 2 * j.toTokens.length ≤ n →
    value? n (j.toTokens ++ rest) = some (j, rest) := by
  induction j using induct with
  | null | bool | int | real | text | unpaired =>
    intro n rest hn
    cases n with
    | zero => cases hn
    | succ n => rfl
  | array xs ih =>
    intro n rest hn
    rw [toTokens, List.length_cons] at hn
    obtain ⟨n, rfl⟩ := Nat.exists_eq_add_one.2 (by omega : 0 < n)
    cases xs with
    | nil => rfl
    | cons x xs =>
      have helements := elements?_elementTokens ih (List.cons_ne_nil x xs) n rest (by omega)
      rw [toTokens, List.cons_append, value?, helements]
      · rfl
      · exact elementTokens_ne x xs rest
  | object fields ih =>
    intro n rest hn
    rw [toTokens, List.length_cons] at hn
    obtain ⟨n, rfl⟩ := Nat.exists_eq_add_one.2 (by omega : 0 < n)
    cases fields with
    | nil => rfl
    | cons f fields =>
      have hmembers := members?_memberTokens ih (List.cons_ne_nil f fields) n rest (by omega)
      rw [toTokens, List.cons_append, value?, hmembers]
      · exact congrArg (fun j => some (j, rest)) (ofFields_map (f :: fields))
      · exact memberTokens_ne f fields rest

/-- The text of a document is read as the document. -/
theorem parse?_render (j : Json) : parse? j.render = some j := by
  have htokens : tokens? (printed j.toTokens) = some j.toTokens := by
    refine tokens?_printed ?_
    have h := separated_toTokens j [] ⟨fun c hc => (Option.not_mem_none c hc).elim, trivial⟩
    rwa [List.append_nil] at h
  have hvalue := value?_toTokens j _ [] (Nat.le_refl _)
  rw [List.append_nil] at hvalue
  rw [parse?, render, String.toList_ofList, htokens]
  show (value? _ _).bind _ = _
  rw [hvalue]
  rfl

theorem parse?_quoted {s : String} (h : ∀ c ∈ s.toList, Plain c) :
    parse? ("\"" ++ s ++ "\"") = some (.text s) := by
  have hplain : s.toList.flatMap quoteChar = s.toList := by
    rw [List.flatMap_congr fun c hc => quoteChar_of_plain (h c hc), List.flatMap_singleton']
  have hrender : "\"" ++ s ++ "\"" = render (.text s) := by
    apply String.toList_injective
    rw [render, toTokens, String.toList_ofList, printed, List.flatMap_singleton, Token.chars, hplain,
      String.toList_append, String.toList_append]
    rfl
  rw [hrender, parse?_render]

end KeyedRows.Json
