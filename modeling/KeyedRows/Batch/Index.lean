import KeyedRows.Batch.Desk

/-!
# The index of waiting requests

* `RequestKind` : whether a request is for the first row that fits or for every such row;
* `RequestIndex` : the places of the waiting requests, found by kind and key;
* `RequestIndex.Lists` : the index holds the requests that wait and nothing else.

One index serves both kinds; a place counts among the requests of its own kind.
-/

namespace KeyedRows

inductive RequestKind where
  | one
  | many
deriving DecidableEq

def RequestKind.choose {α : Type} (one many : α) : RequestKind → α
  | .one => one
  | .many => many

/-- Places of waiting requests under their kinds and keys, the newest first. -/
abbrev RequestIndex (κ : Type) := List ((RequestKind × κ) × Nat)

namespace RequestIndex
variable {κ : Type}

/-- The place that is held for a kind and a key. -/
def place? [DecidableEq κ] (index : RequestIndex κ) (kind : RequestKind) (key : κ) : Option Nat :=
  index.lookup (kind, key)

theorem mem_of_place? [DecidableEq κ] {index : RequestIndex κ} {kind : RequestKind} {key : κ}
    {i : Nat} (h : index.place? kind key = some i) : ((kind, key), i) ∈ index := by
  obtain ⟨before, after, rfl, _⟩ := List.lookup_eq_some_iff.1 h
  exact List.mem_append_right _ List.mem_cons_self

theorem notMem_of_place? [DecidableEq κ] {index : RequestIndex κ} {kind : RequestKind} {key : κ}
    (h : index.place? kind key = none) (i : Nat) : ((kind, key), i) ∉ index := by
  intro hmem
  simpa using List.lookup_eq_none_iff.1 h _ hmem

/-- The entries are the places of the waiting requests, each under its kind and key. -/
def Lists (index : RequestIndex κ) (waiting : RequestKind → List (Request κ)) : Prop :=
  ∀ kind key i, ((kind, key), i) ∈ index ↔ (waiting kind)[i]?.map Request.key = some key

theorem lists_nil : Lists ([] : RequestIndex κ) (RequestKind.choose [] []) := by
  intro kind key i
  cases kind <;> simp [RequestKind.choose]

theorem Lists.cons {index : RequestIndex κ} {waiting waiting' : RequestKind → List (Request κ)}
    (h : index.Lists waiting) (kind : RequestKind) {r : Request κ}
    (hkind : waiting' kind = waiting kind ++ [r])
    (hother : ∀ other, other ≠ kind → waiting' other = waiting other) :
    Lists (((kind, r.key), (waiting kind).length) :: index) waiting' := by
  intro kind' key i
  rw [List.mem_cons, h kind' key i]
  by_cases hk : kind' = kind
  · subst hk
    rw [hkind]
    rcases Nat.lt_trichotomy i (waiting kind').length with hi | rfl | hi
    · rw [List.getElem?_append_left hi]
      have hne : i ≠ (waiting kind').length := by omega
      simp [hne]
    · simp [eq_comm]
    · have hne : i ≠ (waiting kind').length := by omega
      have hnone : (waiting kind')[i]? = none := List.getElem?_eq_none (by omega)
      have hend : (waiting kind' ++ [r])[i]? = none :=
        List.getElem?_eq_none (by rw [List.length_append, List.length_singleton]; omega)
      simp [hne, hnone, hend]
  · simp [hother kind' hk, hk]

theorem Lists.consOne {index : RequestIndex κ} {ones manies : List (Request κ)}
    (h : index.Lists (RequestKind.choose ones manies)) (r : Request κ) :
    Lists (((.one, r.key), ones.length) :: index) (RequestKind.choose (ones ++ [r]) manies) := by
  refine h.cons .one rfl fun other hother => ?_
  cases other with
  | one => exact absurd rfl hother
  | many => rfl

theorem Lists.consMany {index : RequestIndex κ} {ones manies : List (Request κ)}
    (h : index.Lists (RequestKind.choose ones manies)) (r : Request κ) :
    Lists (((.many, r.key), manies.length) :: index) (RequestKind.choose ones (manies ++ [r])) := by
  refine h.cons .many rfl fun other hother => ?_
  cases other with
  | one => rfl
  | many => exact absurd rfl hother

end RequestIndex
end KeyedRows
