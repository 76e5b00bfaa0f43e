import Mathlib.Data.Fintype.Card
import Mathlib.Logic.Relation

namespace DistributedNinja.Lib

variable {Node : Type} (successors : Node → List Node)

section Search

variable [DecidableEq Node]

/-- A node that was seen is left alone, any other is noted and then its successors are visited. The fuel
    bounds the depth. -/
def visit : Nat → Node → List Node → List Node
  | 0, _, seen => seen
  | fuel + 1, node, seen =>
    if node ∈ seen then seen
    else (successors node).foldl (fun seen next => visit fuel next seen) (node :: seen)

/-- What is seen from these nodes. No path of new nodes is longer than there are nodes. -/
def closure [Fintype Node] (roots : List Node) : List Node :=
  roots.foldl (fun seen root => visit successors (Fintype.card Node) root seen) []

end Search

def Leads (node next : Node) : Prop := next ∈ successors node

abbrev Reaches : Node → Node → Prop := Relation.ReflTransGen (Leads successors)

/-- The recursion without a bound, for a loop over `nodes`: it starts with the nodes of `seen` and ends with
    those of the result. -/
inductive Visits : List Node → List Node → List Node → Prop
  | nil (seen : List Node) : Visits [] seen seen
  | again {node : Node} {nodes seen result : List Node} (member : node ∈ seen)
      (rest : Visits nodes seen result) : Visits (node :: nodes) seen result
  | enter {node : Node} {nodes seen between result : List Node} (fresh : node ∉ seen)
      (below : Visits (successors node) (node :: seen) between) (rest : Visits nodes between result) :
      Visits (node :: nodes) seen result

/-- What a search that starts at `nodes` has seen in the end. -/
structure Explores (nodes seen result : List Node) : Prop where
  grows : seen ⊆ result
  nodup : seen.Nodup → result.Nodup
  sound : ∀ node ∈ result, node ∈ seen ∨ ∃ root ∈ nodes, Reaches successors root node
  covers : nodes ⊆ result
  closed : ∀ node ∈ result, node ∈ seen ∨ successors node ⊆ result

variable {successors} {nodes seen result : List Node} {node : Node}

theorem Explores.nothing (seen : List Node) : Explores successors [] seen seen := by
  refine ⟨List.Subset.refl _, id, ?_, List.nil_subset _, ?_⟩
  · exact fun node member => .inl member
  · exact fun node member => .inl member

theorem Explores.again (member : node ∈ seen) : Explores successors [node] seen seen := by
  refine ⟨List.Subset.refl _, id, ?_, List.cons_subset.mpr ⟨member, List.nil_subset _⟩, ?_⟩
  · exact fun node member => .inl member
  · exact fun node member => .inl member

theorem Explores.cons {between : List Node} (first : Explores successors [node] seen between)
    (rest : Explores successors nodes between result) : Explores successors (node :: nodes) seen result := by
  constructor
  · exact List.Subset.trans first.grows rest.grows
  · exact fun distinct => rest.nodup (first.nodup distinct)
  · intro other member
    rcases rest.sound other member with member | ⟨root, listed, path⟩
    · rcases first.sound other member with member | ⟨root, listed, path⟩
      · exact .inl member
      · exact .inr ⟨root, List.mem_singleton.mp listed ▸ List.mem_cons_self, path⟩
    · exact .inr ⟨root, List.mem_cons_of_mem _ listed, path⟩
  · exact List.cons_subset.mpr ⟨rest.grows (first.covers List.mem_cons_self), rest.covers⟩
  · intro other member
    rcases rest.closed other member with member | inside
    · exact (first.closed other member).imp_right fun inside => List.Subset.trans inside rest.grows
    · exact .inr inside

theorem Explores.enter (fresh : node ∉ seen)
    (below : Explores successors (successors node) (node :: seen) result) :
    Explores successors [node] seen result := by
  constructor
  · exact fun other member => below.grows (List.mem_cons_of_mem _ member)
  · exact fun distinct => below.nodup (List.nodup_cons.mpr ⟨fresh, distinct⟩)
  · intro other member
    rcases below.sound other member with member | ⟨next, listed, path⟩
    · rcases List.mem_cons.mp member with rfl | member
      · exact .inr ⟨other, List.mem_cons_self, .refl⟩
      · exact .inl member
    · exact .inr ⟨node, List.mem_cons_self, .head listed path⟩
  · exact List.cons_subset.mpr ⟨below.grows List.mem_cons_self, List.nil_subset _⟩
  · intro other member
    rcases below.closed other member with member | inside
    · rcases List.mem_cons.mp member with rfl | member
      · exact .inr below.covers
      · exact .inl member
    · exact .inr inside

theorem Visits.explores (visits : Visits successors nodes seen result) :
    Explores successors nodes seen result := by
  induction visits with
  | nil seen => exact .nothing seen
  | again member _ ih => exact (Explores.again member).cons ih
  | enter fresh _ _ below rest => exact (Explores.enter fresh below).cons rest

/-- A search that starts with nothing ends with what the roots reach, in whatever order it goes. -/
theorem Visits.mem_iff (visits : Visits successors nodes [] result) :
    node ∈ result ↔ ∃ root ∈ nodes, Reaches successors root node := by
  have explores := visits.explores
  constructor
  · intro member
    exact (explores.sound node member).resolve_left List.not_mem_nil
  · rintro ⟨root, listed, path⟩
    induction path with
    | refl => exact explores.covers listed
    | tail _ leads ih => exact (explores.closed _ ih).resolve_left List.not_mem_nil leads

variable [DecidableEq Node]

variable [Fintype Node]

def unseen (seen : List Node) : Finset Node := Finset.univ.filter fun node => node ∉ seen

theorem unseen_subset {later : List Node} (subset : seen ⊆ later) : unseen later ⊆ unseen seen := by
  intro node member
  simp only [unseen, Finset.mem_filter, Finset.mem_univ, true_and] at member ⊢
  exact fun early => member (subset early)

theorem unseen_cons (fresh : node ∉ seen) : (unseen (node :: seen)).card < (unseen seen).card := by
  apply Finset.card_lt_card
  refine Finset.ssubset_iff_of_subset (unseen_subset (List.subset_cons_self _ _)) |>.mpr ⟨node, ?_, ?_⟩
  · simpa [unseen] using fresh
  · simp [unseen]

theorem foldl_visits (fuel : Nat) : ∀ (nodes seen : List Node), (unseen seen).card ≤ fuel →
    Visits successors nodes seen (nodes.foldl (fun seen next => visit successors fuel next seen) seen) := by
  induction fuel with
  | zero =>
    intro nodes seen enough
    have all : unseen seen = ∅ := Finset.card_eq_zero.mp (Nat.le_zero.mp enough)
    induction nodes with
    | nil => exact .nil seen
    | cons node nodes ih =>
      have member : node ∈ seen := by
        by_contra fresh
        have listed : node ∈ unseen seen := by simpa [unseen] using fresh
        simp [all] at listed
      exact .again member ih
  | succ fuel below =>
    intro nodes
    induction nodes with
    | nil => exact fun seen _ => .nil seen
    | cons node nodes ih =>
      intro seen enough
      rw [List.foldl_cons, visit]
      split
      · rename_i member
        exact .again member (ih seen enough)
      · rename_i fresh
        have fewer := unseen_cons fresh
        have entered := below (successors node) (node :: seen) (by omega)
        have grows : seen ⊆ _ := List.Subset.trans (List.subset_cons_self node seen) entered.explores.grows
        apply Visits.enter fresh entered
        exact ih _ ((Finset.card_le_card (unseen_subset grows)).trans enough)

theorem closure_visits (roots : List Node) : Visits successors roots [] (closure successors roots) :=
  foldl_visits _ roots [] (Finset.card_le_univ _)

theorem mem_closure {roots : List Node} :
    node ∈ closure successors roots ↔ ∃ root ∈ roots, Reaches successors root node :=
  (closure_visits roots).mem_iff

end DistributedNinja.Lib
