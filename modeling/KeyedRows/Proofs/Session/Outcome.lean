import KeyedRows.Proofs.Outcome
import KeyedRows.Session

/-!
# What the writes of a session can do

* `Session.insert_cases`, `Session.update_cases` : a write sends nothing, fails in storage or succeeds,
  and what becomes of the entity in each case;
* `Session.update_of_execute` : an update whose statement storage runs;
* `Session.insert_eq_ok`, `Session.update_eq_ok_of_pos` : writes that succeed.
-/

namespace KeyedRows.Session

variable {σ : Type} (x : Storage σ) (u : Session) (e : Entity) (state : σ)

/-- An insert without a statement, one that storage refuses, and one that it runs. -/
theorem insert_cases :
    (∃ err, u.insert x e state = ((.error err, e), state)) ∨
    ∃ s, e.table.insert u.style e u.context = .ok s ∧
      ((∃ failure next, x.execute s state = (.error failure, next) ∧
        u.insert x e state = ((.error (.storage s.sql failure), e), next)) ∨
      ∃ n next, x.execute s state = (.ok n, next) ∧ u.insert x e state = ((.ok n, e.capture), next)) := by
  cases hs : e.table.insert u.style e u.context with
  | error err => exact .inl ⟨err, by rw [insert, hs]⟩
  | ok s =>
    refine .inr ⟨s, rfl, ?_⟩
    rcases hrun : x.execute s state with ⟨result, next⟩
    cases result with
    | error failure =>
      exact .inl ⟨failure, next, rfl, by simp only [insert, hs, Storage.affected, hrun]; rfl⟩
    | ok n => exact .inr ⟨n, next, rfl, by simp only [insert, hs, Storage.affected, hrun]; rfl⟩

theorem update_of_execute {x : Storage σ} {u : Session} {e : Entity} {state next : σ} {s : Statement}
    {n : Nat} (hs : e.table.update u.style e u.context = .ok (some s))
    (hrun : x.execute s state = (.ok n, next)) :
    u.update x e state = ((.ok n, if n = 0 then e else e.capture), next) := by
  simp only [update, hs, Storage.affected, hrun]
  rfl

/-- An update without a statement, one that storage refuses, and one that it runs. -/
theorem update_cases :
    (∃ result, (∀ n, result = .ok n → n = 0) ∧ u.update x e state = ((result, e), state)) ∨
    ∃ s, e.table.update u.style e u.context = .ok (some s) ∧
      ((∃ failure next, x.execute s state = (.error failure, next) ∧
        u.update x e state = ((.error (.storage s.sql failure), e), next)) ∨
      ∃ n next, x.execute s state = (.ok n, next) ∧
        u.update x e state = ((.ok n, if n = 0 then e else e.capture), next)) := by
  cases hs : e.table.update u.style e u.context with
  | error err => exact .inl ⟨.error err, by simp, by rw [update, hs]⟩
  | ok statement =>
    cases statement with
    | none => exact .inl ⟨.ok 0, by rintro n ⟨⟩; rfl, by rw [update, hs]⟩
    | some s =>
      refine .inr ⟨s, rfl, ?_⟩
      rcases hrun : x.execute s state with ⟨result, next⟩
      cases result with
      | error failure =>
        exact .inl ⟨failure, next, rfl, by simp only [update, hs, Storage.affected, hrun]; rfl⟩
      | ok n => exact .inr ⟨n, next, rfl, update_of_execute hs hrun⟩

variable {x u e state} {after : Entity} {next : σ} {n : Nat}

theorem insert_eq_ok (h : u.insert x e state = ((.ok n, after), next)) :
    ∃ s, e.table.insert u.style e u.context = .ok s ∧ x.execute s state = (.ok n, next) ∧
      after = e.capture := by
  rcases insert_cases x u e state with ⟨_, hresult⟩ | ⟨s, hs, ⟨_, _, _, hresult⟩ | ⟨_, _, hrun, hresult⟩⟩
  all_goals rw [hresult] at h; cases h
  exact ⟨s, hs, hrun, rfl⟩

theorem update_eq_ok_of_pos (h : u.update x e state = ((.ok n, after), next)) (hn : 0 < n) :
    ∃ s, e.table.update u.style e u.context = .ok (some s) ∧ x.execute s state = (.ok n, next) ∧
      after = e.capture := by
  rcases update_cases x u e state with
    ⟨_, hzero, hresult⟩ | ⟨s, hs, ⟨_, _, _, hresult⟩ | ⟨_, _, hrun, hresult⟩⟩
  all_goals rw [hresult] at h; cases h
  · exact absurd (hzero n rfl) (by omega)
  · exact ⟨s, hs, hrun, if_neg (by omega)⟩

end KeyedRows.Session
