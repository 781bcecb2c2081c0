import Mathlib.Data.List.Basic

/-!
# Ownership of resources

A program acquires resources, uses them, and releases them or passes them on. A ledger follows its
operations with the list of the resources that it owns at the moment: nothing is acquired that is
owned already, and nothing is used or released that is not owned.

* `run`: the ledger behind some operations, unless one of them is not allowed.
* `Balanced`: the operations release everything that the program owns at the start, and whatever
  they acquire.
* `run_append`, `run_block`: one run behind another, and what is acquired and released again in
  between.
-/

namespace Ownership

variable {ι : Type*} [DecidableEq ι]

/-- The operations on a resource. -/
inductive Op (ι : Type*)
  /-- A new resource. -/
  | acquire (id : ι)
  /-- A use of a resource, which stays with the program. -/
  | use (id : ι)
  /-- A resource is freed or passed on. -/
  | release (id : ι)

/-- The ledger behind an operation, if this is allowed. -/
def step (live : List ι) : Op ι → Option (List ι)
  | .acquire id => if id ∈ live then none else some (id :: live)
  | .use id => if id ∈ live then some live else none
  | .release id => if id ∈ live then some (live.erase id) else none

/-- The ledger behind some operations, if they are all allowed. -/
def run (live : List ι) (ops : List (Op ι)) : Option (List ι) := ops.foldlM step live

/-- In the end nothing is owned. -/
def Balanced (live : List ι) (ops : List (Op ι)) : Prop := run live ops = some []

variable {live live' : List ι} {ops ops' : List (Op ι)} {id : ι}

theorem run_cons (live : List ι) (op : Op ι) (ops : List (Op ι)) :
    run live (op :: ops) = (step live op).bind fun live => run live ops := rfl

theorem run_append (h : run live ops = some live') : run live (ops ++ ops') = run live' ops' := by
  rw [run, List.foldlM_append]
  change (run live ops).bind _ = _
  rw [h]
  rfl

theorem run_use_cons (h : id ∈ live) : run live (.use id :: ops) = run live ops := by
  rw [run_cons, step, if_pos h]
  rfl

theorem run_release_cons (h : id ∈ live) :
    run live (.release id :: ops) = run (live.erase id) ops := by
  rw [run_cons, step, if_pos h]
  rfl

/-- What is acquired and released again in between leaves the ledger as it is. -/
theorem run_block (hnew : id ∉ live) (hops : run (id :: live) ops = some ((id :: live).erase id)) :
    run live (.acquire id :: ops ++ ops') = run live ops' := by
  rw [List.erase_cons_head] at hops
  rw [List.cons_append, run_cons, step, if_neg hnew]
  exact run_append hops

end Ownership
