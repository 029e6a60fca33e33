import ProviderKit.Path

/-!
# Collections of distinct paths

Paths keep the order in which they were added, and a path that is already
present is not added again.  That no path is repeated is part of the type.
-/

namespace ProviderKit

/-- Distinct paths in the order of their addition. -/
structure Paths where
  toList : List Path
  nodup : toList.Nodup

namespace Paths

def empty : Paths :=
  ⟨[], List.nodup_nil⟩

instance : Inhabited Paths := ⟨empty⟩

def contains (paths : Paths) (path : Path) : Bool :=
  paths.toList.contains path

/-- Add a path behind the others unless it is present. -/
def append (paths : Paths) (path : Path) : Paths :=
  if present : path ∈ paths.toList then paths
  else
    { toList := paths.toList ++ [path]
      nodup := by
        rw [List.nodup_append]
        refine ⟨paths.nodup, by simp, ?_⟩
        intro old isOld new isNew same
        simp only [List.mem_singleton] at isNew
        exact present (isNew ▸ same ▸ isOld) }

def extend (paths : Paths) (more : List Path) : Paths :=
  more.foldl append paths

/-- The distinct paths of a list, each at its first place. -/
def ofList (paths : List Path) : Paths :=
  empty.extend paths

def size (paths : Paths) : Nat :=
  paths.toList.length

def isEmpty (paths : Paths) : Bool :=
  paths.toList.isEmpty

theorem mem_append {paths : Paths} {path other : Path} :
    other ∈ (paths.append path).toList ↔ other ∈ paths.toList ∨ other = path := by
  unfold append
  split
  · next present => exact ⟨Or.inl, fun h => h.elim id fun same => same ▸ present⟩
  · simp

theorem mem_extend {paths : Paths} {more : List Path} {path : Path} :
    path ∈ (paths.extend more).toList ↔ path ∈ paths.toList ∨ path ∈ more := by
  induction more generalizing paths with
  | nil => simp [extend]
  | cons first rest inductionHypothesis =>
      refine inductionHypothesis.trans ?_
      rw [mem_append, List.mem_cons, or_assoc]

/-- A collection is only empty when nothing was to be collected. -/
theorem toList_ofList_eq_nil_iff {paths : List Path} : (ofList paths).toList = [] ↔ paths = [] := by
  simp [List.eq_nil_iff_forall_not_mem, ofList, mem_extend, empty]

end Paths
end ProviderKit
