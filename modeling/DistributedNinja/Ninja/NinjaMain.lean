import DistributedNinja.Lib.DepthFirst
import DistributedNinja.Ninja.Plan

namespace DistributedNinja.Ninja

open Lib

variable {Edge : Type} (manifest : Manifest Edge) (defaultNodes : List String)

/-- `GetAllEdges`, where `DefaultNodes` returns these nodes, in the order in which `GetAllEdgesHelper` inserts
    the edges. -/
def Manifest.getAllEdges [DecidableEq Edge] [Fintype Edge] : List Edge :=
  closure manifest.prerequisites (defaultNodes.filterMap manifest.inEdge)

def Manifest.NeededFor (edge : Edge) : Prop :=
  ∃ path ∈ defaultNodes, ∃ root, manifest.inEdge path = some root ∧ Reaches manifest.prerequisites root edge

variable {manifest defaultNodes}

theorem exists_root_iff {edge : Edge} :
    (∃ root ∈ defaultNodes.filterMap manifest.inEdge, Reaches manifest.prerequisites root edge) ↔
      manifest.NeededFor defaultNodes edge := by
  constructor
  · rintro ⟨root, listed, path⟩
    obtain ⟨node, member, produced⟩ := List.mem_filterMap.mp listed
    exact ⟨node, member, root, produced, path⟩
  · rintro ⟨node, member, root, produced, path⟩
    exact ⟨root, List.mem_filterMap.mpr ⟨node, member, produced⟩, path⟩

/-- The order in which the inputs and the default nodes are gone through makes no difference. -/
theorem mem_of_visits {inputs : Edge → List Edge} {roots edges : List Edge}
    (inputsOf : ∀ edge, (inputs edge).Perm (manifest.prerequisites edge))
    (rootsOf : roots.Perm (defaultNodes.filterMap manifest.inEdge)) (visits : Visits inputs roots [] edges)
    {edge : Edge} : edge ∈ edges ↔ manifest.NeededFor defaultNodes edge := by
  have leads : Leads inputs = Leads manifest.prerequisites := by
    ext node next
    exact (inputsOf node).mem_iff
  rw [visits.mem_iff, ← exists_root_iff, Reaches, leads]
  constructor
  · rintro ⟨root, listed, path⟩
    exact ⟨root, rootsOf.mem_iff.mp listed, path⟩
  · rintro ⟨root, listed, path⟩
    exact ⟨root, rootsOf.mem_iff.mpr listed, path⟩

variable [DecidableEq Edge] [Fintype Edge]

theorem mem_getAllEdges {edge : Edge} :
    edge ∈ manifest.getAllEdges defaultNodes ↔ manifest.NeededFor defaultNodes edge := by
  rw [Manifest.getAllEdges, mem_closure, exists_root_iff]

end DistributedNinja.Ninja
