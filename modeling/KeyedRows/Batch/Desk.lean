/-!
# Requests of one kind

* `Answer` : what is known of a request: nothing yet, rows that were found, or that there are none;
* `Request` : a request that waits;
* `Desk` : the answers given out for one kind of request, and the requests still waiting;
* `Desk.enqueue` : lets a request wait under a new handle;
* `Desk.mapWaiting`, `Desk.dismiss` : change the answers of waiting requests, and let none wait.

A handle is the place of an answer, so answers are only ever added behind the others.
-/

namespace KeyedRows

inductive Resolution where
  | pending
  | found
  | missing
deriving DecidableEq

structure Answer (α : Type) where
  resolution : Resolution := .pending
  value : α
deriving DecidableEq

def Answer.isPending {α : Type} (a : Answer α) : Bool := a.resolution = .pending

/-- A request that waits, under a key of type `κ`. -/
structure Request (κ : Type) where
  key : κ
  /-- The place of the answer. -/
  handle : Nat
deriving DecidableEq

/-- Answers in order of their handles, and waiting requests in order of arrival. -/
structure Desk (κ α : Type) where
  answers : List (Answer α) := []
  waiting : List (Request κ) := []
deriving DecidableEq

namespace Desk
variable {κ α : Type}

/-- Lets a request wait; its answer is pending and holds `fresh`. -/
def enqueue (d : Desk κ α) (key : κ) (fresh : α) : Desk κ α where
  answers := d.answers ++ [{ value := fresh }]
  waiting := d.waiting ++ [⟨key, d.answers.length⟩]

/-- Changes the answer of each waiting request, in order of arrival. -/
def mapWaiting (f : κ → Answer α → Answer α) (d : Desk κ α) : Desk κ α :=
  { d with answers := d.waiting.foldl (fun as r => as.modify r.handle (f r.key)) d.answers }

def dismiss (d : Desk κ α) : Desk κ α := { d with waiting := [] }

end Desk
end KeyedRows
