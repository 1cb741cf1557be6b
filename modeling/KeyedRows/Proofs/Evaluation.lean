import KeyedRows.KeyRange
import KeyedRows.Proofs.Junction

/-!
# What conditions mean

* `Truth` : the truth values of SQL with `and`, `or`, and `all`, `any` over lists;
* `View` : one row as conditions see it, each column against values;
* `Predicate.eval` : the truth of a predicate on a row;
* `eval_merge` : merging nested conjunctions or disjunctions keeps the truth.
-/

namespace KeyedRows

/-! ## Truth values -/

/-- The truth of a condition; a comparison with null is `unknown`. -/
inductive Truth where
  | no | unknown | yes
deriving DecidableEq

namespace Truth

def ofBool (b : Bool) : Truth := if b then yes else no

protected def and : Truth → Truth → Truth
  | no, _ => no
  | unknown, no => no
  | unknown, _ => unknown
  | yes, b => b

protected def or : Truth → Truth → Truth
  | yes, _ => yes
  | unknown, yes => yes
  | unknown, _ => unknown
  | no, b => b

/-- True if all are true, as an empty list is, and false if one is false. -/
def all (ts : List Truth) : Truth := ts.foldr Truth.and yes

/-- True if one is true, and false if all are false, as an empty list is. -/
def any (ts : List Truth) : Truth := ts.foldr Truth.or no

theorem and_assoc (a b c : Truth) : (a.and b).and c = a.and (b.and c) := by
  cases a <;> cases b <;> cases c <;> rfl

theorem or_assoc (a b c : Truth) : (a.or b).or c = a.or (b.or c) := by
  cases a <;> cases b <;> cases c <;> rfl

theorem and_comm (a b : Truth) : a.and b = b.and a := by cases a <;> cases b <;> rfl

theorem and_or_left (a b c : Truth) : a.and (b.or c) = (a.and b).or (a.and c) := by
  cases a <;> cases b <;> cases c <;> rfl

@[simp] theorem and_yes (a : Truth) : a.and yes = a := by cases a <;> rfl

@[simp] theorem yes_and (a : Truth) : yes.and a = a := rfl

@[simp] theorem or_no (a : Truth) : a.or no = a := by cases a <;> rfl

@[simp] theorem no_or (a : Truth) : no.or a = a := rfl

@[simp] theorem ofBool_true : ofBool true = yes := rfl

@[simp] theorem ofBool_false : ofBool false = no := rfl

theorem ofBool_and (a b : Bool) : (ofBool a).and (ofBool b) = ofBool (a && b) := by
  cases a <;> cases b <;> rfl

theorem ofBool_or (a b : Bool) : (ofBool a).or (ofBool b) = ofBool (a || b) := by
  cases a <;> cases b <;> rfl

@[simp] theorem ofBool_eq_yes {b : Bool} : ofBool b = yes ↔ b = true := by
  cases b <;> simp [ofBool]

theorem and_eq_yes {a b : Truth} : a.and b = yes ↔ a = yes ∧ b = yes := by
  cases a <;> cases b <;> simp [Truth.and]

theorem or_eq_yes {a b : Truth} : a.or b = yes ↔ a = yes ∨ b = yes := by
  cases a <;> cases b <;> simp [Truth.or]

@[simp] theorem all_nil : all [] = yes := rfl

@[simp] theorem all_cons (t : Truth) (ts : List Truth) : all (t :: ts) = t.and (all ts) := rfl

@[simp] theorem any_nil : any [] = no := rfl

@[simp] theorem any_cons (t : Truth) (ts : List Truth) : any (t :: ts) = t.or (any ts) := rfl

@[simp] theorem all_append (ts us : List Truth) : all (ts ++ us) = (all ts).and (all us) := by
  induction ts with
  | nil => rfl
  | cons t ts ih => rw [List.cons_append, all_cons, ih, all_cons, and_assoc]

@[simp] theorem any_append (ts us : List Truth) : any (ts ++ us) = (any ts).or (any us) := by
  induction ts with
  | nil => rfl
  | cons t ts ih => rw [List.cons_append, any_cons, ih, any_cons, or_assoc]

theorem all_eq_yes {ts : List Truth} : all ts = yes ↔ ∀ t ∈ ts, t = yes := by
  induction ts with
  | nil => simp
  | cons t ts ih => rw [all_cons, and_eq_yes, ih, List.forall_mem_cons]

theorem any_eq_yes {ts : List Truth} : any ts = yes ↔ yes ∈ ts := by
  induction ts with
  | nil => simp
  | cons t ts ih => rw [any_cons, or_eq_yes, ih, List.mem_cons, eq_comm]

end Truth

namespace Junction

def op : Junction → Truth → Truth → Truth
  | and => Truth.and
  | or => Truth.or

def truth : Junction → List Truth → Truth
  | and => Truth.all
  | or => Truth.any

theorem truth_cons (j : Junction) (t : Truth) (ts : List Truth) :
    j.truth (t :: ts) = j.op t (j.truth ts) := by
  cases j <;> rfl

theorem truth_singleton (j : Junction) (t : Truth) : j.truth [t] = t := by
  cases j <;> simp [truth]

theorem truth_append (j : Junction) (ts us : List Truth) :
    j.truth (ts ++ us) = j.op (j.truth ts) (j.truth us) := by
  cases j <;> simp [truth, op]

end Junction

/-! ## Rows and predicates -/

def Comparison.holds : Comparison → Ordering → Bool
  | eq => Ordering.isEq
  | ne => Ordering.isNe
  | lt => Ordering.isLT
  | le => Ordering.isLE
  | gt => Ordering.isGT
  | ge => Ordering.isGE

theorem Comparison.holds_mirrored (op : Comparison) (o : Ordering) :
    op.mirrored.holds o = op.holds o.swap := by
  cases op <;> cases o <;> rfl

/-- One row as conditions see it. -/
structure View where
  isNull : String → Bool
  /-- How a column compares with a value; nothing where one of them is null. -/
  compare : String → Value → Option Ordering
  /-- Whether a column fits a pattern. -/
  like : String → Value → Truth

def View.test (view : View) (op : Comparison) (column : String) (v : Value) : Truth :=
  match view.compare column v with
  | some o => .ofBool (op.holds o)
  | none => .unknown

namespace Predicate

mutual

def eval (view : View) : Predicate → Truth
  | compare column op v => view.test op column v
  | isNull column => .ofBool (view.isNull column)
  | isNotNull column => .ofBool !(view.isNull column)
  | isIn column values => .any (values.map (view.test .eq column))
  | between column low high => (view.test .ge column low).and (view.test .le column high)
  | like column pattern => view.like column pattern
  | and parts => .all (evalParts view parts)
  | or parts => .any (evalParts view parts)

def evalParts (view : View) : List Predicate → List Truth
  | [] => []
  | p :: parts => p.eval view :: evalParts view parts

end

variable (view : View)

@[simp] theorem evalParts_eq_map (parts : List Predicate) :
    evalParts view parts = parts.map (eval view) := by
  induction parts with
  | nil => rfl
  | cons p parts ih => rw [evalParts, ih, List.map_cons]

/-! ## Merged conjunctions and disjunctions -/

theorem eval_group (j : Junction) (parts : List Predicate) :
    (j.group parts).eval view = j.truth (parts.map (eval view)) := by
  cases j <;> simp [Junction.group, Junction.truth, eval]

theorem truth_parts (j : Junction) (p : Predicate) :
    j.truth ((j.parts p).map (eval view)) = p.eval view := by
  rcases j.group_or_parts_eq p with ⟨parts, rfl⟩ | ⟨_, hself⟩
  · rw [j.parts_group, eval_group]
  · rw [hself, List.map_singleton, j.truth_singleton]

theorem truth_flatMap_parts (j : Junction) (parts : List Predicate) :
    j.truth ((parts.flatMap j.parts).map (eval view)) = j.truth (parts.map (eval view)) := by
  induction parts with
  | nil => rfl
  | cons p parts ih =>
    rw [List.flatMap_cons, List.map_append, j.truth_append, truth_parts, ih, List.map_cons,
      j.truth_cons]

theorem eval_wrap (j : Junction) (parts : List Predicate) :
    (j.wrap parts).eval view = j.truth (parts.map (eval view)) := by
  unfold Junction.wrap
  split
  · rw [List.map_singleton, j.truth_singleton]
  · exact eval_group view j _

/-- Merging groups keeps the truth, also where it is unknown. -/
theorem eval_merge (j : Junction) (parts : List Predicate) :
    (j.merge parts).eval view = j.truth (parts.map (eval view)) := by
  rw [j.merge_eq_wrap, eval_wrap, truth_flatMap_parts]

theorem eval_all (parts : List Predicate) :
    (Predicate.all parts).eval view = .all (parts.map (eval view)) :=
  eval_merge view .and parts

theorem eval_any (parts : List Predicate) :
    (Predicate.any parts).eval view = .any (parts.map (eval view)) :=
  eval_merge view .or parts

theorem all_eval_conjuncts (p : Predicate) : .all (p.conjuncts.map (eval view)) = p.eval view :=
  truth_parts view .and p

end Predicate
end KeyedRows
