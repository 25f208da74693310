import Mathlib.Logic.Function.Basic
import Mathlib.Data.List.Nodup

/-! # A graph kept from both sides

A graph is kept twice: every edge knows its two ends, and every vertex has the list of its edges.
`Consistent` says that the two agree.  To take an edge away, or to put one in, is to do it on both
sides. -/
namespace IncidenceLists
variable {E V : Type}

/-- The edges with both their ends, the lists of the vertices, and nothing in one that is not in the
other. -/
structure Consistent (ends : E → Option (V × V)) (edges : V → List E) : Prop where
  distinct : ∀ e a b, ends e = some (a, b) → a ≠ b
  mem_iff : ∀ e v, e ∈ edges v ↔ ∃ a b, ends e = some (a, b) ∧ (v = a ∨ v = b)
  nodup : ∀ v, (edges v).Nodup

variable {ends : E → Option (V × V)} {edges : V → List E}

theorem consistent_empty : Consistent (fun _ : E => none) (fun _ : V => []) where
  distinct e a b h := by simp at h
  mem_iff e v := by simp
  nodup v := List.nodup_nil

/-- An edge is in the lists of both its ends. -/
theorem Consistent.mem_left (h : Consistent ends edges) {e : E} {a b : V}
    (he : ends e = some (a, b)) : e ∈ edges a := (h.mem_iff e a).mpr ⟨a, b, he, .inl rfl⟩

theorem Consistent.mem_right (h : Consistent ends edges) {e : E} {a b : V}
    (he : ends e = some (a, b)) : e ∈ edges b := (h.mem_iff e b).mpr ⟨a, b, he, .inr rfl⟩

variable [DecidableEq V]

/-- Vertex `v` with edge `e` after the others. -/
def link (edges : V → List E) (v : V) (e : E) : V → List E :=
  Function.update edges v (edges v ++ [e])

/-- A vertex lists what it did, and the new edge if it is its end. -/
theorem mem_link {edges : V → List E} {v w : V} {e f : E} :
    f ∈ link edges v e w ↔ f ∈ edges w ∨ w = v ∧ f = e := by
  by_cases hw : w = v
  · subst hw
    simp [link]
  · simp [link, hw]

/-- A new edge is listed once. -/
theorem nodup_link {edges : V → List E} {v : V} {e : E} (h : ∀ w, (edges w).Nodup)
    (he : e ∉ edges v) (w : V) : (link edges v e w).Nodup := by
  by_cases hw : w = v
  · subst hw
    simp only [link, Function.update_self]
    rw [List.nodup_append]
    refine ⟨h w, by simp, ?_⟩
    intro f hf g hg hfg
    obtain rfl : g = e := by simpa using hg
    exact he (hfg ▸ hf)
  · simpa [link, hw] using h w

variable [DecidableEq E]

/-- Vertex `v` without edge `e`. -/
def unlink (edges : V → List E) (v : V) (e : E) : V → List E :=
  Function.update edges v ((edges v).filter (· ≠ e))

/-- And nothing but that edge is taken off. -/
theorem mem_unlink {edges : V → List E} {v w : V} {e f : E} :
    f ∈ unlink edges v e w ↔ f ∈ edges w ∧ (w = v → f ≠ e) := by
  by_cases hw : w = v
  · subst hw
    simp [unlink]
  · simp [unlink, hw]

theorem nodup_unlink {edges : V → List E} (h : ∀ w, (edges w).Nodup) (v : V) (e : E) (w : V) :
    (unlink edges v e w).Nodup := by
  by_cases hw : w = v
  · subst hw
    simpa [unlink] using (h w).filter _
  · simpa [unlink, hw] using h w

namespace Consistent

/-- An edge can be taken off both its ends. -/
theorem remove (h : Consistent ends edges) {e : E} {a b : V} (he : ends e = some (a, b)) :
    Consistent (Function.update ends e none) (unlink (unlink edges a e) b e) where
  distinct f c d hf := by
    by_cases hfe : f = e
    · subst hfe
      simp at hf
    · rw [Function.update_of_ne hfe] at hf
      exact h.distinct f c d hf
  mem_iff f v := by
    rw [mem_unlink, mem_unlink, h.mem_iff]
    by_cases hfe : f = e
    · subst hfe
      rw [Function.update_self, he]
      constructor
      · rintro ⟨⟨⟨c, d, hcd, hv⟩, ha⟩, hb⟩
        simp only [Option.some.injEq, Prod.mk.injEq] at hcd
        obtain ⟨rfl, rfl⟩ := hcd
        rcases hv with rfl | rfl
        · exact absurd rfl (ha rfl)
        · exact absurd rfl (hb rfl)
      · rintro ⟨c, d, hcd, -⟩
        simp at hcd
    · rw [Function.update_of_ne hfe]
      exact ⟨fun hf => hf.1.1, fun hf => ⟨⟨hf, fun _ => hfe⟩, fun _ => hfe⟩⟩
  nodup := nodup_unlink (nodup_unlink h.nodup a e) b e

/-- An edge between two different vertices can be put on both. -/
theorem add (h : Consistent ends edges) {e : E} {a b : V} (he : ends e = none) (hab : a ≠ b) :
    Consistent (Function.update ends e (some (a, b))) (link (link edges a e) b e) where
  distinct f c d hf := by
    by_cases hfe : f = e
    · subst hfe
      rw [Function.update_self] at hf
      simp only [Option.some.injEq, Prod.mk.injEq] at hf
      obtain ⟨rfl, rfl⟩ := hf
      exact hab
    · rw [Function.update_of_ne hfe] at hf
      exact h.distinct f c d hf
  mem_iff f v := by
    rw [mem_link, mem_link, h.mem_iff]
    by_cases hfe : f = e
    · subst hfe
      rw [Function.update_self, he]
      constructor
      · rintro ((⟨c, d, hcd, -⟩ | ⟨rfl, -⟩) | ⟨rfl, -⟩)
        · simp at hcd
        · exact ⟨v, b, rfl, .inl rfl⟩
        · exact ⟨a, v, rfl, .inr rfl⟩
      · rintro ⟨c, d, hcd, hv⟩
        simp only [Option.some.injEq, Prod.mk.injEq] at hcd
        obtain ⟨rfl, rfl⟩ := hcd
        rcases hv with rfl | rfl
        · exact .inl (.inr ⟨rfl, rfl⟩)
        · exact .inr ⟨rfl, rfl⟩
    · rw [Function.update_of_ne hfe]
      simp [hfe]
  nodup := by
    have hmem : ∀ v, e ∉ edges v := by
      intro v hv
      obtain ⟨c, d, hcd, -⟩ := (h.mem_iff e v).mp hv
      rw [he] at hcd
      simp at hcd
    apply nodup_link (nodup_link h.nodup (hmem a))
    rw [mem_link]
    rintro (hb | ⟨hba, -⟩)
    · exact hmem b hb
    · exact hab hba.symm

end Consistent

end IncidenceLists
