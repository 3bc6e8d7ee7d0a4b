import Inference.JobQueue
import Mathlib.Data.List.Induction
import Mathlib.Logic.Relation
/-! Places in the trees of jobs that were queued. Jobs may be alike in all that they hold, so which job
is meant is told by where it stands. -/
namespace Inference

/-- A tree, counted in the order of queueing, and the way down from its root. -/
structure Place where
  tree : Nat
  path : List Nat
  deriving DecidableEq

namespace Place

open Relation

variable {p q c : Place} {trees : List JobTree}

def root (tree : Nat) : Place := ⟨tree, []⟩

def child (p : Place) (i : Nat) : Place := { p with path := p.path ++ [i] }

/-- The job at a place, if there is one. -/
def job? (trees : List JobTree) (p : Place) : Option JobTree :=
  trees[p.tree]?.bind fun root => p.path.foldlM (fun job i => job.next[i]?) root

/-- The place of a job and the place of one that it queues. -/
def ParentOf (p c : Place) : Prop := ∃ i, c = p.child i

theorem child_inj {i j : Nat} : p.child i = q.child j ↔ p = q ∧ i = j := by
  obtain ⟨tree, path⟩ := p
  obtain ⟨tree', path'⟩ := q
  simp [child, and_assoc]

theorem ParentOf.unique (hp : ParentOf p c) (hq : ParentOf q c) : p = q := by
  obtain ⟨i, rfl⟩ := hp
  obtain ⟨j, hj⟩ := hq
  exact (child_inj.1 hj).1

theorem not_parentOf_root (p : Place) (tree : Nat) : ¬ParentOf p (root tree) := by
  rintro ⟨i, hroot⟩
  simp [root, child] at hroot

theorem job?_root (trees : List JobTree) (tree : Nat) : (root tree).job? trees = trees[tree]? := by
  cases h : trees[tree]? <;> simp [root, job?, h]

theorem job?_child (trees : List JobTree) (p : Place) (i : Nat) :
    (p.child i).job? trees = (p.job? trees).bind (·.next[i]?) := by
  simp [job?, child, List.foldlM_append, Option.bind_assoc]

theorem tree_lt_of_isSome (h : (p.job? trees).isSome) : p.tree < trees.length := by
  have hroot := Option.isSome_of_isSome_bind h
  rwa [isSome_getElem?] at hroot

/-- More trees are queued behind those that are there. -/
theorem job?_append (h : p.tree < trees.length) (more : List JobTree) :
    p.job? (trees ++ more) = p.job? trees := by
  rw [job?, job?, List.getElem?_append_left h]

/-- Above a job there are jobs only. -/
theorem isSome_of_above (h : ReflTransGen ParentOf p c) (hc : (c.job? trees).isSome) :
    (p.job? trees).isSome := by
  induction h with
  | refl => exact hc
  | tail _ hparent ih =>
    obtain ⟨i, rfl⟩ := hparent
    rw [job?_child] at hc
    exact ih (Option.isSome_of_isSome_bind hc)

/-- Every place is reached from the root of its tree. -/
theorem root_above (p : Place) : ReflTransGen ParentOf (root p.tree) p := by
  obtain ⟨tree, path⟩ := p
  induction path using List.reverseRecOn with
  | nil => exact .refl
  | append_singleton path i ih => exact ih.tail ⟨i, rfl⟩

end Place
end Inference
