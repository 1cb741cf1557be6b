import KeyedRows.Batch.Desk
import Mathlib.Data.List.Nodup

/-!
# Requests and their answers

* `Desk.Sound` : every waiting request has a pending answer of its own;
* `Desk.Accurate` : no two requests wait under one key, and no other answer is pending;
* `Sound.enqueue`, `Accurate.enqueue` : a desk stays so when a request comes to wait;
* `getElem?_mapWaiting`, `getElem?_foldl_mapWaiting` : what becomes of the answer of one waiting
  request;
* `Desk.settle` : changes for every waiting request, after which none waits;
* `Accurate.settle` : a desk stays accurate if they leave no answer pending;
* `Accurate.length_filter_isPending` : as many answers are pending as requests wait;
* `Keeps` : an answer that is not pending never changes.
-/

namespace KeyedRows.Desk

variable {κ α : Type}

/-- Every waiting request has a pending answer of its own, which holds `fresh`. -/
structure Sound (d : Desk κ α) (fresh : α) : Prop where
  pending : ∀ r ∈ d.waiting, d.answers[r.handle]? = some { value := fresh }
  nodup : (d.waiting.map Request.handle).Nodup

/-- One request waits for each key, and no answer is pending but those of waiting requests. -/
structure Accurate (d : Desk κ α) (fresh : α) : Prop extends d.Sound fresh where
  keys : (d.waiting.map Request.key).Nodup
  awaited : ∀ i a, d.answers[i]? = some a → a.isPending = true → i ∈ d.waiting.map Request.handle

/-! ## Waiting -/

section
variable {d : Desk κ α} {fresh : α}

theorem Sound.handle_lt (h : d.Sound fresh) {r : Request κ} (hr : r ∈ d.waiting) :
    r.handle < d.answers.length :=
  (List.getElem?_eq_some_iff.1 (h.pending r hr)).1

theorem Sound.enqueue (h : d.Sound fresh) (key : κ) : (d.enqueue key fresh).Sound fresh where
  pending r hr := by
    rcases List.mem_append.1 hr with hr | hr
    · rw [Desk.enqueue, List.getElem?_append_left (h.handle_lt hr), h.pending r hr]
    · rw [List.mem_singleton.1 hr]
      simp [Desk.enqueue]
  nodup := by
    rw [Desk.enqueue, List.map_append, List.nodup_append]
    refine ⟨h.nodup, by simp, fun i hi j hj => ?_⟩
    obtain ⟨r, hr, rfl⟩ := List.mem_map.1 hi
    have hlt := h.handle_lt hr
    have hj : j = d.answers.length := by simpa using hj
    omega

theorem accurate_empty (fresh : α) : Accurate ({} : Desk κ α) fresh where
  pending := by simp
  nodup := by simp
  keys := by simp
  awaited := by simp

theorem Accurate.enqueue (h : d.Accurate fresh) {key : κ} (hkey : key ∉ d.waiting.map Request.key) :
    (d.enqueue key fresh).Accurate fresh where
  toSound := h.toSound.enqueue key
  keys := by
    rw [Desk.enqueue, List.map_append, List.nodup_append]
    refine ⟨h.keys, by simp, fun k hk k' hk' => ?_⟩
    rw [List.map_singleton, List.mem_singleton] at hk'
    rintro rfl
    rw [hk'] at hk
    exact hkey hk
  awaited i a ha hpending := by
    rw [Desk.enqueue] at ha ⊢
    dsimp only at ha ⊢
    rw [List.map_append, List.mem_append]
    rcases Nat.lt_or_ge i d.answers.length with hi | hi
    · rw [List.getElem?_append_left hi] at ha
      exact .inl (h.awaited i a ha hpending)
    · have hlt := (List.getElem?_eq_some_iff.1 ha).1
      rw [List.length_append, List.length_singleton] at hlt
      have heq : i = d.answers.length := by omega
      exact .inr (by simp [heq])

theorem Accurate.exists_resolved (h : d.Accurate fresh) (hwaiting : d.waiting = []) {i : Nat}
    (hi : i < d.answers.length) : ∃ a, d.answers[i]? = some a ∧ a.isPending = false := by
  refine ⟨d.answers[i], List.getElem?_eq_getElem hi, Bool.eq_false_iff.2 fun hpending => ?_⟩
  have hwaits := h.awaited i d.answers[i] (List.getElem?_eq_getElem hi) hpending
  rw [hwaiting] at hwaits
  cases hwaits

theorem Accurate.eq_of_key (h : d.Accurate fresh) {r s : Request κ} (hr : r ∈ d.waiting)
    (hs : s ∈ d.waiting) (hkey : r.key = s.key) : r = s :=
  List.inj_on_of_nodup_map h.keys hr hs hkey

theorem Sound.eq_of_handle (h : d.Sound fresh) {r s : Request κ} (hr : r ∈ d.waiting)
    (hs : s ∈ d.waiting) (hhandle : r.handle = s.handle) : r = s :=
  List.inj_on_of_nodup_map h.nodup hr hs hhandle

theorem Accurate.length_filter_isPending (h : d.Accurate fresh) :
    ((List.range d.answers.length).filter fun i => (d.answers[i]?).any Answer.isPending).length =
      d.waiting.length := by
  have hlength : (d.waiting.map Request.handle).length = d.waiting.length := List.length_map _
  rw [← hlength]
  refine List.Perm.length_eq ?_
  rw [List.perm_ext_iff_of_nodup (List.nodup_range.filter _) h.nodup]
  intro i
  rw [List.mem_filter, List.mem_range, Option.any_eq_true]
  constructor
  · rintro ⟨_, a, ha, hpending⟩
    exact h.awaited i a ha hpending
  · intro hi
    obtain ⟨r, hr, rfl⟩ := List.mem_map.1 hi
    exact ⟨h.handle_lt hr, _, h.pending r hr, rfl⟩

end

/-! ## Changing answers -/

theorem getElem?_foldl_modify_of_notMem (f : κ → Answer α → Answer α) {i : Nat} :
    ∀ {rs : List (Request κ)} (answers : List (Answer α)), i ∉ rs.map Request.handle →
      (rs.foldl (fun as r => as.modify r.handle (f r.key)) answers)[i]? = answers[i]?
  | [], _, _ => rfl
  | r :: rs, answers, hi => by
    rw [List.map_cons, List.mem_cons, not_or] at hi
    rw [List.foldl_cons, getElem?_foldl_modify_of_notMem f _ hi.2,
      List.getElem?_modify_ne _ _ (Ne.symm hi.1)]

/-- Each request changes its own answer, and the others leave it alone. -/
theorem getElem?_foldl_modify (f : κ → Answer α → Answer α) {r : Request κ} :
    ∀ {rs : List (Request κ)} (answers : List (Answer α)), (rs.map Request.handle).Nodup → r ∈ rs →
      (rs.foldl (fun as r => as.modify r.handle (f r.key)) answers)[r.handle]? =
        answers[r.handle]?.map (f r.key)
  | s :: rs, answers, hnodup, hr => by
    obtain ⟨hs, hnodup⟩ := List.nodup_cons.1 hnodup
    rw [List.foldl_cons]
    rcases List.mem_cons.1 hr with rfl | hr
    · rw [getElem?_foldl_modify_of_notMem f _ hs, List.getElem?_modify_eq]
      rfl
    · have hne : s.handle ≠ r.handle := fun heq => hs (List.mem_map.2 ⟨r, hr, heq.symm⟩)
      rw [getElem?_foldl_modify f _ hnodup hr, List.getElem?_modify_ne _ _ hne]

variable {d : Desk κ α}

theorem getElem?_mapWaiting (hnodup : (d.waiting.map Request.handle).Nodup) {r : Request κ}
    (hr : r ∈ d.waiting) (f : κ → Answer α → Answer α) :
    (d.mapWaiting f).answers[r.handle]? = d.answers[r.handle]?.map (f r.key) :=
  getElem?_foldl_modify f d.answers hnodup hr

@[simp] theorem waiting_mapWaiting (f : κ → Answer α → Answer α) :
    (d.mapWaiting f).waiting = d.waiting := rfl

theorem getElem?_foldl_mapWaiting {r : Request κ} (fs : List (κ → Answer α → Answer α)) :
    ∀ {d : Desk κ α}, (d.waiting.map Request.handle).Nodup → r ∈ d.waiting →
      (fs.foldl (fun d f => d.mapWaiting f) d).answers[r.handle]? =
        d.answers[r.handle]?.map fun a => fs.foldl (fun a f => f r.key a) a := by
  induction fs with
  | nil => intro d _ _; simp
  | cons f fs ih =>
    intro d hnodup hr
    rw [List.foldl_cons, ih (by simpa using hnodup) (by simpa using hr),
      getElem?_mapWaiting hnodup hr, Option.map_map]
    rfl

/-! ## Resolving -/

/-- Hands every change to each waiting request, and then lets none wait. -/
def settle (fs : List (κ → Answer α → Answer α)) (d : Desk κ α) : Desk κ α :=
  (fs.foldl (fun d f => d.mapWaiting f) d).dismiss

theorem length_answers_mapWaiting (f : κ → Answer α → Answer α) :
    (d.mapWaiting f).answers.length = d.answers.length := by
  have hlength : ∀ (rs : List (Request κ)) (answers : List (Answer α)),
      (rs.foldl (fun as r => as.modify r.handle (f r.key)) answers).length = answers.length := by
    intro rs
    induction rs with
    | nil => exact fun _ => rfl
    | cons r rs ih => exact fun answers => by rw [List.foldl_cons, ih, List.length_modify]
  exact hlength d.waiting d.answers

theorem length_answers_settle (fs : List (κ → Answer α → Answer α)) (d : Desk κ α) :
    (d.settle fs).answers.length = d.answers.length := by
  unfold settle dismiss
  induction fs generalizing d with
  | nil => rfl
  | cons f fs ih => rw [List.foldl_cons, ih, length_answers_mapWaiting]

theorem getElem?_settle_of_notMem {i : Nat} (fs : List (κ → Answer α → Answer α)) :
    ∀ {d : Desk κ α}, i ∉ d.waiting.map Request.handle →
      (d.settle fs).answers[i]? = d.answers[i]? := by
  unfold settle dismiss
  induction fs with
  | nil => exact fun _ => rfl
  | cons f fs ih =>
    intro d hi
    rw [List.foldl_cons, ih (by simpa using hi)]
    exact getElem?_foldl_modify_of_notMem f d.answers hi

/-- The answer of a waiting request takes every change in turn. -/
theorem getElem?_settle (hnodup : (d.waiting.map Request.handle).Nodup) {r : Request κ}
    (hr : r ∈ d.waiting) (fs : List (κ → Answer α → Answer α)) :
    (d.settle fs).answers[r.handle]? =
      d.answers[r.handle]?.map fun a => fs.foldl (fun a f => f r.key a) a :=
  getElem?_foldl_mapWaiting fs hnodup hr

theorem Accurate.not_pending_settle {fresh : α} (h : d.Accurate fresh)
    {fs : List (κ → Answer α → Answer α)}
    (hfs : ∀ r ∈ d.waiting, ∀ a, (d.settle fs).answers[r.handle]? = some a → a.isPending = false)
    {i : Nat} {a : Answer α} (ha : (d.settle fs).answers[i]? = some a) : a.isPending = false := by
  by_cases hi : i ∈ d.waiting.map Request.handle
  · obtain ⟨r, hr, rfl⟩ := List.mem_map.1 hi
    exact hfs r hr a ha
  · rw [getElem?_settle_of_notMem fs hi] at ha
    rw [Bool.eq_false_iff]
    exact fun hpending => hi (h.awaited i a ha hpending)

theorem Accurate.settle {fresh : α} (h : d.Accurate fresh) {fs : List (κ → Answer α → Answer α)}
    (hfs : ∀ r ∈ d.waiting, ∀ a, (d.settle fs).answers[r.handle]? = some a → a.isPending = false) :
    (d.settle fs).Accurate fresh where
  pending r hr := by cases hr
  nodup := List.nodup_nil
  keys := List.nodup_nil
  awaited i a ha hpending := by
    rw [h.not_pending_settle hfs ha] at hpending
    cases hpending

/-! ## Answers that are final -/

/-- Every answer that is not pending is still the same. -/
def Keeps (d d' : Desk κ α) : Prop :=
  ∀ (i : Nat) (a : Answer α), d.answers[i]? = some a → a.isPending = false → d'.answers[i]? = some a

theorem Keeps.refl (d : Desk κ α) : d.Keeps d := fun _ _ ha _ => ha

theorem keeps_enqueue (d : Desk κ α) (key : κ) (fresh : α) : d.Keeps (d.enqueue key fresh) := by
  intro i a ha _
  rw [enqueue, List.getElem?_append_left (List.getElem?_eq_some_iff.1 ha).1, ha]

/-- Only answers of waiting requests change, which are pending. -/
theorem Sound.keeps_settle {fresh : α} (h : d.Sound fresh) (fs : List (κ → Answer α → Answer α)) :
    d.Keeps (d.settle fs) := by
  intro i a ha hresolved
  rw [getElem?_settle_of_notMem fs, ha]
  intro hi
  obtain ⟨r, hr, rfl⟩ := List.mem_map.1 hi
  rw [h.pending r hr] at ha
  cases ha
  cases hresolved

end KeyedRows.Desk
