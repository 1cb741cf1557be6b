import KeyedRows.Proofs.Batch.Desk
import KeyedRows.Proofs.KeyMatch

/-!
# Requests of a batch

* `Table.Takes` : a tuple that fits the key, and the values that a request for it waits under;
* `prepare_eq_ok` : a batch takes exactly such tuples;
* `Call`, `request`, `requestAll` : a request of either kind, and a run of them;
* `Ready` : what holds of a batch between its calls;
* `Extends` : every request of one batch still waits in another;
* `Waits` : a call whose answer has a given handle and is still to come;
* `request_cases` : the three things that can come of a call;
* `Ready.request`, `Ready.requestAll` : what one call does, and what a run of calls does.
-/

namespace KeyedRows

/-! ## Tuples -/

/-- The tuple fits the key, and the key columns give it back as the other one. -/
def Table.Takes (t : Table) (tuple key : List Value) : Prop :=
  KeyRange.Fits t.key tuple ∧ t.Coerces t.keyColumns tuple key

theorem Table.Takes.fits {t : Table} {tuple key : List Value} (h : t.Takes tuple key) :
    KeyRange.Fits t.key key := by
  obtain ⟨⟨hne, hle⟩, hcoerces⟩ := h
  have hlength := hcoerces.length_eq
  refine ⟨?_, by omega⟩
  rintro rfl
  exact hne (List.length_eq_zero_iff.1 hlength.symm)

namespace Batch

section
variable {t : Table}

theorem checkTuple_eq_ok {tuple : List Value} :
    checkTuple t tuple = .ok () ↔ KeyRange.Fits t.key tuple := by
  unfold checkTuple KeyRange.Fits
  by_cases hkey : t.key = []
  · simp only [hkey, List.isEmpty_nil, if_true, List.length_nil, reduceCtorEq, false_iff]
    rintro ⟨hne, hle⟩
    exact hne (List.length_eq_zero_iff.1 (by omega))
  · by_cases htuple : tuple = []
    · simp [hkey, htuple]
    · simp [hkey, htuple]

theorem coerces_of_mapM : ∀ {columns : List String} {tuple key : List Value},
    tuple.length ≤ columns.length →
      ((columns.zip tuple).mapM fun (column, v) => do
        let c ← t.requireColumn column
        (c.type.coerce v).mapError Error.value) = .ok key →
      t.Coerces columns tuple key
  | columns, [], key, _, h => by
    rw [List.zip_nil_right] at h
    cases h
    exact .nil columns
  | [], v :: tuple, key, hle, _ => by simp at hle
  | column :: columns, v :: tuple, key, hle, h => by
    rw [List.zip_cons_cons, List.mapM_cons] at h
    obtain ⟨w, hw, h⟩ := bind_eq_ok.1 h
    obtain ⟨ws, hws, h⟩ := bind_eq_ok.1 h
    cases h
    obtain ⟨c, hc, hw⟩ := bind_eq_ok.1 hw
    exact .cons (Table.requireColumn_eq_ok.1 hc) (mapError_eq_ok.1 hw)
      (coerces_of_mapM (by simpa using hle) hws)

theorem mapM_of_coerces {columns : List String} {tuple key : List Value}
    (h : t.Coerces columns tuple key) : ((columns.zip tuple).mapM fun (column, v) => do
      let c ← t.requireColumn column
      (c.type.coerce v).mapError Error.value) = .ok key := by
  induction h with
  | nil columns =>
    rw [List.zip_nil_right]
    rfl
  | cons hc hw _ ih =>
    rw [List.zip_cons_cons, List.mapM_cons]
    refine bind_eq_ok.2 ⟨_, ?_, bind_eq_ok.2 ⟨_, ih, rfl⟩⟩
    exact bind_eq_ok.2 ⟨_, Table.requireColumn_eq_ok.2 hc, mapError_eq_ok.2 hw⟩

end

variable {b : Batch}

theorem prepare_eq_ok {tuple key : List Value} :
    b.prepare tuple = .ok key ↔ b.poisoned = false ∧ b.table.Takes tuple key := by
  unfold prepare
  cases hpoisoned : b.poisoned with
  | true => simp
  | false =>
    rw [if_neg (by simp)]
    cases hcheck : checkTuple b.table tuple with
    | error e =>
      have hfits : ¬KeyRange.Fits b.table.key tuple := by
        rw [← checkTuple_eq_ok, hcheck]
        simp
      simp [Table.Takes, hfits]
    | ok _ =>
      have hfits := checkTuple_eq_ok.1 hcheck
      have hle : tuple.length ≤ b.table.keyColumns.length := by
        rw [Table.keyColumns, List.length_map]
        exact hfits.2
      exact ⟨fun h => ⟨rfl, hfits, coerces_of_mapM hle h⟩, fun h => mapM_of_coerces h.2.2⟩

/-! ## Calls -/

inductive Call where
  | one (tuple : List Value)
  | many (tuple : List Value)
deriving DecidableEq

def Call.kind : Call → RequestKind
  | .one _ => .one
  | .many _ => .many

def Call.tuple : Call → List Value
  | .one tuple | .many tuple => tuple

def request (b : Batch) : Call → Except Error Nat × Batch
  | .one tuple => b.requestOne tuple
  | .many tuple => b.requestMany tuple

def requestAll (b : Batch) : List Call → List (Except Error Nat) × Batch
  | [] => ([], b)
  | call :: calls =>
    let (result, b) := b.request call
    let (results, b) := b.requestAll calls
    (result :: results, b)

/-- Every request that waits has an answer of its own to come, under a tuple that was taken. -/
structure Ready (b : Batch) : Prop where
  poisoned : b.poisoned = false
  ones : b.ones.Sound (.new b.table)
  manies : b.manies.Sound []
  taken : ∀ key ∈ (b.ones.waiting ++ b.manies.waiting).map Request.key,
    ∃ tuple, b.table.Takes tuple key

/-- Every request still waits, for the same table. -/
structure Extends (b b' : Batch) : Prop where
  table : b'.table = b.table
  style : b'.style = b.style
  ones : b.ones.waiting ⊆ b'.ones.waiting
  manies : b.manies.waiting ⊆ b'.manies.waiting

theorem Extends.refl (b : Batch) : b.Extends b := ⟨rfl, rfl, fun _ h => h, fun _ h => h⟩

theorem Extends.trans {b b' b'' : Batch} (h : b.Extends b') (h' : b'.Extends b'') : b.Extends b'' where
  table := h'.table.trans h.table
  style := h'.style.trans h.style
  ones _ hr := h'.ones (h.ones hr)
  manies _ hr := h'.manies (h.manies hr)

/-- The answer to a call has the handle and is still to come. -/
def Waits (b : Batch) : Call → Nat → Prop
  | .one tuple, handle => ∃ key, b.table.Takes tuple key ∧ ⟨key, handle⟩ ∈ b.ones.waiting
  | .many tuple, handle => ∃ key, b.table.Takes tuple key ∧ ⟨key, handle⟩ ∈ b.manies.waiting

theorem waits_iff {call : Call} {handle : Nat} : b.Waits call handle ↔
    ∃ key, b.table.Takes call.tuple key ∧ ⟨key, handle⟩ ∈ b.waiting call.kind := by
  cases call <;> rfl

theorem Waits.extends {b' : Batch} (h : b.Extends b') {call : Call} {handle : Nat}
    (hw : b.Waits call handle) : b'.Waits call handle := by
  cases call with
  | one tuple =>
    obtain ⟨key, htakes, hr⟩ := hw
    exact ⟨key, h.table ▸ htakes, h.ones hr⟩
  | many tuple =>
    obtain ⟨key, htakes, hr⟩ := hw
    exact ⟨key, h.table ▸ htakes, h.manies hr⟩

theorem Waits.pending_ne_zero {call : Call} {handle : Nat} (h : b.Waits call handle) :
    b.pending ≠ 0 := by
  unfold pending
  cases call with
  | one tuple =>
    obtain ⟨key, _, hr⟩ := h
    have hpos := List.length_pos_of_mem hr
    omega
  | many tuple =>
    obtain ⟨key, _, hr⟩ := h
    have hpos := List.length_pos_of_mem hr
    omega

theorem waiting_eq_nil (hpending : b.pending = 0) (kind : RequestKind) : b.waiting kind = [] := by
  unfold pending at hpending
  cases kind with
  | one =>
    have hlength : b.ones.waiting.length = 0 := by omega
    exact List.length_eq_zero_iff.1 hlength
  | many =>
    have hlength : b.manies.waiting.length = 0 := by omega
    exact List.length_eq_zero_iff.1 hlength

theorem ready_of_pending (hpoisoned : b.poisoned = false) (hpending : b.pending = 0) : b.Ready := by
  have hones : b.ones.waiting = [] := waiting_eq_nil hpending .one
  have hmanies : b.manies.waiting = [] := waiting_eq_nil hpending .many
  exact {
    poisoned := hpoisoned
    ones := { pending := by simp [hones], nodup := by simp [hones] }
    manies := { pending := by simp [hmanies], nodup := by simp [hmanies] }
    taken := by simp [hones, hmanies] }

/-! ## What calls do -/

def handles (b : Batch) : RequestKind → Nat :=
  RequestKind.choose b.ones.answers.length b.manies.answers.length

def enqueue (b : Batch) (key : List Value) : RequestKind → Batch
  | .one => b.enqueueOne key
  | .many => b.enqueueMany key

theorem mem_waiting_of_handle? {kind : RequestKind} {key : List Value} {handle : Nat}
    (h : b.handle? kind key = some handle) : ⟨key, handle⟩ ∈ b.waiting kind := by
  obtain ⟨i, hi, hh⟩ := Option.bind_eq_some_iff.1 h
  obtain ⟨r, hr, rfl⟩ := Option.map_eq_some_iff.1 hh
  have hkey := (b.indexed kind key i).1 (RequestIndex.mem_of_place? hi)
  change ((b.waiting kind)[i]?).map Request.key = some key at hkey
  rw [hr, Option.map_some, Option.some.injEq] at hkey
  rw [← hkey]
  exact List.mem_of_getElem? hr

theorem notMem_keys_of_handle? {kind : RequestKind} {key : List Value}
    (h : b.handle? kind key = none) : key ∉ (b.waiting kind).map Request.key := by
  intro hkey
  obtain ⟨i, hi⟩ := List.mem_iff_getElem?.1 hkey
  rw [List.getElem?_map] at hi
  cases hplace : b.index.place? kind key with
  | none => exact RequestIndex.notMem_of_place? hplace i ((b.indexed kind key i).2 hi)
  | some j =>
    have hj := (b.indexed kind key j).1 (RequestIndex.mem_of_place? hplace)
    obtain ⟨r, hr, _⟩ := Option.map_eq_some_iff.1 hj
    change (b.waiting kind)[j]? = some r at hr
    rw [handle?, hplace, Option.bind_some, hr] at h
    cases h

/-- A request of a kind, in one form for both kinds. -/
def requestAs (b : Batch) (kind : RequestKind) (tuple : List Value) : Except Error Nat × Batch :=
  match b.prepare tuple with
  | .error e => (.error e, b)
  | .ok key => match b.handle? kind key with
    | some handle => (.ok handle, b.countRequest true)
    | none => (.ok (b.handles kind), (b.enqueue key kind).countRequest false)

theorem request_eq (b : Batch) (call : Call) : b.request call = b.requestAs call.kind call.tuple := by
  cases call <;> rfl

/-- What comes of a call: it is rejected, it gets the handle of the request that waits for the same
values, or it comes to wait itself. -/
theorem request_cases (b : Batch) (call : Call) :
    (∃ e, b.prepare call.tuple = .error e ∧ b.request call = (.error e, b)) ∨
      ∃ key, b.poisoned = false ∧ b.table.Takes call.tuple key ∧
        ((∃ handle, ⟨key, handle⟩ ∈ b.waiting call.kind ∧
            b.request call = (.ok handle, b.countRequest true)) ∨
          (key ∉ (b.waiting call.kind).map Request.key ∧ b.request call =
            (.ok (b.handles call.kind), (b.enqueue key call.kind).countRequest false))) := by
  rw [request_eq, requestAs]
  cases hkey : b.prepare call.tuple with
  | error e => exact .inl ⟨e, rfl, rfl⟩
  | ok key =>
    obtain ⟨hpoisoned, htakes⟩ := prepare_eq_ok.1 hkey
    refine .inr ⟨key, hpoisoned, htakes, ?_⟩
    cases hhandle : b.handle? call.kind key with
    | some handle => exact .inl ⟨handle, mem_waiting_of_handle? hhandle, by simp only [hhandle]⟩
    | none => exact .inr ⟨notMem_keys_of_handle? hhandle, by simp only [hhandle]⟩

/-- A call is taken exactly if its tuple fits and can be coerced, and no flush has failed. -/
theorem exists_request_iff {call : Call} : (∃ handle, (b.request call).1 = .ok handle) ↔
    b.poisoned = false ∧ ∃ key, b.table.Takes call.tuple key := by
  rcases b.request_cases call with
    ⟨e, he, heq⟩ | ⟨key, hpoisoned, htakes, ⟨handle, _, heq⟩ | ⟨_, heq⟩⟩
  · rw [heq]
    constructor
    · rintro ⟨_, ⟨⟩⟩
    · rintro ⟨hpoisoned, key, htakes⟩
      rw [prepare_eq_ok.2 ⟨hpoisoned, htakes⟩] at he
      cases he
  · rw [heq]
    exact ⟨fun _ => ⟨hpoisoned, key, htakes⟩, fun _ => ⟨handle, rfl⟩⟩
  · rw [heq]
    exact ⟨fun _ => ⟨hpoisoned, key, htakes⟩, fun _ => ⟨_, rfl⟩⟩

theorem request_of_error {call : Call} {e : Error} (h : (b.request call).1 = .error e) :
    (b.request call).2 = b := by
  rcases b.request_cases call with
    ⟨e', _, heq⟩ | ⟨key, _, _, ⟨handle, _, heq⟩ | ⟨_, heq⟩⟩
  · rw [heq]
  · rw [heq] at h
    cases h
  · rw [heq] at h
    cases h

theorem mem_waiting_enqueue (b : Batch) (key : List Value) (kind : RequestKind) :
    ⟨key, b.handles kind⟩ ∈ (b.enqueue key kind).waiting kind := by
  cases kind <;> exact List.mem_append_right _ (List.mem_singleton_self _)

theorem extends_enqueue (b : Batch) (key : List Value) (kind : RequestKind) :
    b.Extends (b.enqueue key kind) := by
  cases kind with
  | one => exact ⟨rfl, rfl, fun _ hr => List.mem_append_left _ hr, fun _ hr => hr⟩
  | many => exact ⟨rfl, rfl, fun _ hr => hr, fun _ hr => List.mem_append_left _ hr⟩

theorem Ready.countRequest (h : b.Ready) (again : Bool) : (b.countRequest again).Ready :=
  ⟨h.poisoned, h.ones, h.manies, h.taken⟩

theorem mem_keys_enqueue (b : Batch) (key : List Value) (kind : RequestKind) {other : List Value} :
    other ∈ ((b.enqueue key kind).ones.waiting ++ (b.enqueue key kind).manies.waiting).map
        Request.key ↔
      other ∈ (b.ones.waiting ++ b.manies.waiting).map Request.key ∨ other = key := by
  cases kind <;>
    simp only [Batch.enqueue, enqueueOne, enqueueMany, Desk.enqueue, List.map_append,
      List.mem_append, List.map_singleton, List.mem_singleton]
  · exact or_right_comm
  · exact (or_assoc).symm

theorem Ready.enqueue (h : b.Ready) {tuple key : List Value} (htakes : b.table.Takes tuple key)
    (kind : RequestKind) : (b.enqueue key kind).Ready where
  poisoned := by cases kind <;> exact h.poisoned
  ones := by
    cases kind with
    | one => exact h.ones.enqueue key
    | many => exact h.ones
  manies := by
    cases kind with
    | one => exact h.manies
    | many => exact h.manies.enqueue key
  taken other hother := by
    rw [(b.extends_enqueue key kind).table]
    rcases (b.mem_keys_enqueue key kind).1 hother with hother | rfl
    · exact h.taken other hother
    · exact ⟨tuple, htakes⟩

/-- One call keeps a batch ready and lets no request go; if it is taken, it waits. -/
theorem Ready.request (h : b.Ready) (call : Call) :
    (b.request call).2.Ready ∧ b.Extends (b.request call).2 ∧
      ∀ handle, (b.request call).1 = .ok handle → (b.request call).2.Waits call handle := by
  rcases b.request_cases call with
    ⟨e, _, heq⟩ | ⟨key, _, htakes, ⟨handle, hr, heq⟩ | ⟨_, heq⟩⟩
  · rw [heq]
    exact ⟨h, .refl b, fun _ hhandle => by cases hhandle⟩
  · rw [heq]
    refine ⟨h.countRequest true, ⟨rfl, rfl, fun _ hr => hr, fun _ hr => hr⟩, ?_⟩
    rintro _ ⟨⟩
    exact waits_iff.2 ⟨key, htakes, hr⟩
  · rw [heq]
    have hext := b.extends_enqueue key call.kind
    refine ⟨(h.enqueue htakes call.kind).countRequest false,
      ⟨hext.table, hext.style, hext.ones, hext.manies⟩, ?_⟩
    rintro _ ⟨⟩
    refine waits_iff.2 ⟨key, ?_, b.mem_waiting_enqueue key call.kind⟩
    rw [← hext.table] at htakes
    exact htakes

theorem Ready.requestAll (h : b.Ready) (calls : List Call) :
    (b.requestAll calls).2.Ready ∧ b.Extends (b.requestAll calls).2 ∧
      ∀ call handle, (call, .ok handle) ∈ calls.zip (b.requestAll calls).1 →
        (b.requestAll calls).2.Waits call handle := by
  induction calls generalizing b with
  | nil => exact ⟨h, .refl b, fun _ _ hmem => by cases hmem⟩
  | cons call calls ih =>
    obtain ⟨hready, hext, hwaits⟩ := h.request call
    obtain ⟨hready', hext', hwaits'⟩ := ih hready
    refine ⟨hready', hext.trans hext', fun call' handle hmem => ?_⟩
    rw [Batch.requestAll, List.zip_cons_cons, List.mem_cons] at hmem
    rcases hmem with hmem | hmem
    · have hhandle : (b.request call).1 = .ok handle := (Prod.mk.inj hmem).2.symm
      rw [(Prod.mk.inj hmem).1]
      exact (hwaits handle hhandle).extends hext'
    · exact hwaits' call' handle hmem

end Batch
end KeyedRows
