import Mathlib.Data.Tree.Basic
import Mathlib.Order.Lattice

/-!
# Bisection of a list of intervals

A binary search looks at the entry in the middle of a range and goes on with the part before it or
with the part behind it.  Which entries it can come to, and in which order, does not depend on what
it looks for: they are the nodes of a tree, `halves`, and the search is a way down in it (`find`).

The search relies on this (`Ordered`): no entry in the left subtree of a node reaches beyond the end
of the node, and no entry in the right subtree begins before the node does.  Only a node and what is
below it are compared, so the entries need not be disjoint: one may lie inside another if the search
comes to the outer one first.
-/

namespace TgCli.Lib
namespace Bisection

open List

variable {α β : Type*}

def inorder : BinaryTree α → List α
  | .nil => []
  | .node x l r => inorder l ++ x :: inorder r

/-- The tree of the bisection of a list, down to a depth of `n`.  The entry in the middle is the one
with half of the others in front of it, rounded down. -/
def halves : ℕ → List α → BinaryTree α
  | 0, _ => .nil
  | n + 1, l =>
    match l.drop ((l.length - 1) / 2) with
    | [] => .nil
    | x :: r => .node x (halves n (l.take ((l.length - 1) / 2))) (halves n r)

theorem halves_nil (n : ℕ) : halves n ([] : List α) = .nil := by
  cases n with
  | zero => rfl
  | succ n => rw [halves, drop_nil]

theorem halves_append (n : ℕ) {a b : List α} (x : α) (h : a.length = (a.length + b.length) / 2) :
    halves (n + 1) (a ++ x :: b) = .node x (halves n a) (halves n b) := by
  have hmid : ((a ++ x :: b).length - 1) / 2 = a.length := by
    rw [length_append, length_cons]
    omega
  rw [halves, hmid, drop_left, take_left]

theorem exists_middle {l : List α} (hl : l ≠ []) :
    ∃ a x b, l = a ++ x :: b ∧ a.length = (a.length + b.length) / 2 := by
  have hpos := length_pos_iff.mpr hl
  have hlt : (l.length - 1) / 2 < l.length := by omega
  refine ⟨l.take ((l.length - 1) / 2), _, _,
    (take_append_drop _ l).symm.trans (congrArg _ (drop_eq_getElem_cons hlt)), ?_⟩
  rw [length_take, length_drop]
  omega

@[elab_as_elim] theorem halves_induction {motive : ℕ → List α → Prop} (nil : ∀ n, motive n [])
    (node : ∀ n a x b, a.length = (a.length + b.length) / 2 → motive n a → motive n b →
      motive (n + 1) (a ++ x :: b))
    {n : ℕ} {l : List α} (h : l.length ≤ n) : motive n l := by
  induction n generalizing l with
  | zero =>
    obtain rfl := length_eq_zero_iff.mp (Nat.le_zero.mp h)
    exact nil 0
  | succ n ih =>
    by_cases hl : l = []
    · subst hl
      exact nil (n + 1)
    · obtain ⟨a, x, b, rfl, hmid⟩ := exists_middle hl
      rw [length_append, length_cons] at h
      exact node n a x b hmid (ih (by omega)) (ih (by omega))

theorem inorder_halves {n : ℕ} {l : List α} (h : l.length ≤ n) : inorder (halves n l) = l := by
  refine halves_induction (fun n => ?_) (fun n a x b hmid iha ihb => ?_) h
  · rw [halves_nil, inorder]
  · rw [halves_append n x hmid, inorder, iha, ihb]

section Intervals

variable [LinearOrder β] (lo hi : α → β)

def find (k : β) : BinaryTree α → Bool
  | .nil => false
  | .node x l r => if hi x < k then find k r else if k < lo x then find k l else true

/-- At every node the search may leave out the subtree that it does not go on with. -/
def Ordered : BinaryTree α → Prop
  | .nil => True
  | .node x l r => (∀ y ∈ inorder l, hi y ≤ hi x) ∧ (∀ y ∈ inorder r, lo x ≤ lo y) ∧
      Ordered l ∧ Ordered r

instance decidableOrdered : ∀ t, Decidable (Ordered lo hi t)
  | .nil => .isTrue trivial
  | .node _ l r =>
    have := decidableOrdered l
    have := decidableOrdered r
    inferInstanceAs (Decidable (_ ∧ _ ∧ Ordered lo hi l ∧ Ordered lo hi r))

variable {lo hi}

/-- **A key is found exactly if some entry contains it.** -/
theorem find_iff {t : BinaryTree α} (h : Ordered lo hi t) (k : β) :
    find lo hi k t = true ↔ ∃ x ∈ inorder t, lo x ≤ k ∧ k ≤ hi x := by
  induction t with
  | nil => simp [find, inorder]
  | node x l r ihl ihr =>
    obtain ⟨hleft, hright, hl, hr⟩ := h
    rw [find, inorder]
    simp only [mem_append, mem_cons]
    split_ifs with habove hbelow
    · -- what is to the left of the node ends before the key as well
      rw [ihr hr]
      constructor
      · rintro ⟨y, hy, hk⟩
        exact ⟨y, .inr (.inr hy), hk⟩
      · rintro ⟨y, hy | rfl | hy, hk⟩
        · exact absurd (le_trans hk.2 (hleft y hy)) (not_le.mpr habove)
        · exact absurd hk.2 (not_le.mpr habove)
        · exact ⟨y, hy, hk⟩
    · rw [ihl hl]
      constructor
      · rintro ⟨y, hy, hk⟩
        exact ⟨y, .inl hy, hk⟩
      · rintro ⟨y, hy | rfl | hy, hk⟩
        · exact ⟨y, hy, hk⟩
        · exact absurd hk.1 (not_le.mpr hbelow)
        · exact absurd (le_trans (hright y hy) hk.1) (not_le.mpr hbelow)
    · exact iff_of_true rfl ⟨x, .inr (.inl rfl), not_lt.mp hbelow, not_lt.mp habove⟩

end Intervals

end Bisection
end TgCli.Lib
