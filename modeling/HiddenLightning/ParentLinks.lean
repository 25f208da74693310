import Mathlib.Data.List.Basic

/-! # Walking back along parent links

Items that each name a parent form a tree that can only be walked towards its root.  A walk from
an item back to an ancestor is the list of the items it passes.  It can be prolonged at its end, it
is as long as it goes down, and two walks from one item agree as far as they go. -/
namespace ParentLinks

variable {α : Type} {R : α → α → Prop} {a b c p : α} {l m : List α}

/-- A walk from `a` back to `b` that passes `l`: first `a`, and `b` no longer.  `R a p` says that
`p` is the parent of `a`. -/
inductive Walk (R : α → α → Prop) : α → List α → α → Prop where
  | stay (a : α) : Walk R a [] a
  | back {a p b : α} {l : List α} : R a p → Walk R p l b → Walk R a (a :: l) b

namespace Walk

/-- A walk goes one item further back. -/
theorem snoc (walk : Walk R a l b) (link : R b c) : Walk R a (l ++ [b]) c := by
  induction walk with
  | stay a => exact .back link (.stay c)
  | back first _ ih => exact .back first (ih link)

/-- The last item a walk passes is a child of the one it ends at. -/
theorem of_snoc (walk : Walk R a (l ++ [p]) b) : Walk R a l p ∧ R p b := by
  induction l generalizing a with
  | nil =>
    cases walk with
    | back link rest =>
      cases rest
      exact ⟨.stay _, link⟩
  | cons q l ih =>
    cases walk with
    | back link rest =>
      obtain ⟨hwalk, hlast⟩ := ih rest
      exact ⟨.back link hwalk, hlast⟩

/-- Everything a walk passes has a parent. -/
theorem exists_parent (walk : Walk R a l b) : ∀ q ∈ l, ∃ p, R q p := by
  induction walk with
  | stay a => simp
  | @back a p b l link _ ih =>
    intro q hq
    rcases List.mem_cons.mp hq with rfl | hq
    · exact ⟨p, link⟩
    · exact ih q hq

/-- Every link of a walk leaves from an item that a walk from the same start reaches. -/
theorem from_start {s : α} {before : List α} (reach : Walk R s before a) (walk : Walk R a l b) :
    Walk (fun q p => R q p ∧ ∃ m, Walk R s m q) a l b := by
  induction walk generalizing before with
  | stay a => exact .stay a
  | back link _ ih => exact .back ⟨link, before, reach⟩ (ih (reach.snoc link))

/-- If a parent is one lower than its child, a walk is as long as it goes down. -/
theorem height_eq (walk : Walk R a l b) (height : α → Nat)
    (down : ∀ a p, R a p → height a = height p + 1) : height a = height b + l.length := by
  induction walk with
  | stay a => rfl
  | back link _ ih =>
    have hlink := down _ _ link
    simp only [List.length_cons]
    omega

/-- Where parents are unique, the shorter of two walks from one item is the start of the
longer. -/
theorem exists_rest (unique : ∀ a p q, R a p → R a q → p = q) (short : Walk R a l b) :
    ∀ {m c}, Walk R a m c → l.length ≤ m.length → ∃ rest, m = l ++ rest ∧ Walk R b rest c := by
  induction short with
  | stay a => intro m c long _; exact ⟨m, rfl, long⟩
  | back link _ ih =>
    intro m c long hlen
    cases long with
    | stay => simp at hlen
    | back link' rest =>
      obtain rfl := unique _ _ _ link link'
      obtain ⟨after, rfl, hafter⟩ := ih rest (by simpa using hlen)
      exact ⟨after, rfl, hafter⟩

end Walk
end ParentLinks
