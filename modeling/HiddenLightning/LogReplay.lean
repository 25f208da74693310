import Mathlib

/-! # Replaying a log of numbered entries

A component keeps its state in memory and on disk as a snapshot plus a log.
Applying an entry to a state can do three things (`Outcome`): abort the process,
return a new state, or return a new state together with a complaint.  The two
sides treat the complaint differently:

* at run time the new state is kept whatever was returned (`advance`);
* on replay the first complaint stops the whole replay (`replay`).

`replay_of_advance` relates them: on the entries that were applied at run time,
replay reproduces the state exactly when none of them was complained about, and
stops otherwise.

Entries are read back in no particular order and sorted by number (`sortBy`);
a list in strictly increasing order is the sort of each of its permutations
(`sortBy_eq_of_perm`).
-/
namespace LogReplay

/-- The result of applying one entry. -/
inductive Outcome (σ : Type) where
  | panicked
  | returned (ok : Bool) (s : σ)

/-- How a replay ends. -/
inductive End (σ : Type) where
  | panicked
  | stopped
  | done (s : σ)

section Replay
variable {σ ε : Type} (apply : ε → σ → Outcome σ)

/-- Applying entries until one is complained about or aborts. -/
def replay : List ε → σ → End σ
  | [], s => .done s
  | e :: es, s =>
    match apply e s with
    | .panicked => .panicked
    | .returned false _ => .stopped
    | .returned true s' => replay es s'

/-- The entries a replay hands to `apply`, the one that ends it included. -/
def calls : List ε → σ → List ε
  | [], _ => []
  | e :: es, s =>
    e :: match apply e s with
      | .returned true s' => calls es s'
      | _ => []

/-- A replay of the entries gets through. -/
def Accepts (es : List ε) (s : σ) : Prop := ∃ s', replay apply es s = .done s'

/-- Applying every entry, whatever is returned: the final state and whether all
returned `Ok`; `none` when one aborts. -/
def advance : List ε → σ → Option (σ × Bool)
  | [], s => some (s, true)
  | e :: es, s =>
    match apply e s with
    | .panicked => none
    | .returned ok s' => (advance es s').map fun r => (r.1, ok && r.2)

variable {apply}

/-- A replay that gets through has applied every entry. -/
theorem calls_of_done {es : List ε} {s s' : σ} (h : replay apply es s = .done s') :
    calls apply es s = es := by
  induction es generalizing s with
  | nil => rfl
  | cons e es ih =>
    rw [replay] at h
    rw [calls]
    split at h
    · cases h
    · cases h
    · rename_i s₁ heq
      rw [heq]
      exact congrArg (e :: ·) (ih h)

theorem accepts_nil (s : σ) : Accepts apply [] s := ⟨s, rfl⟩

theorem accepts_cons {e : ε} {es : List ε} {s : σ} :
    Accepts apply (e :: es) s ↔ ∃ s', apply e s = .returned true s' ∧ Accepts apply es s' := by
  rw [Accepts, replay]
  cases apply e s with
  | panicked => exact iff_of_false nofun nofun
  | returned ok s' =>
    cases ok with
    | false => exact iff_of_false nofun nofun
    | true =>
      constructor
      · rintro ⟨t, ht⟩
        exact ⟨s', rfl, t, ht⟩
      · rintro ⟨t, heq, hes⟩
        cases heq
        exact hes

/-- Entries that are accepted are accepted up to any of them. -/
theorem Accepts.of_initial {es us : List ε} {s : σ} (h : Accepts apply es s) (hus : us <+: es) :
    Accepts apply us s := by
  induction us generalizing es s with
  | nil => exact accepts_nil s
  | cons u us ih =>
    obtain ⟨rest, rfl⟩ := hus
    obtain ⟨s', hu, hrest⟩ := accepts_cons.mp h
    exact accepts_cons.mpr ⟨s', hu, ih hrest (List.prefix_append us rest)⟩

/-- **Which entries a replay hands over**: all of them, if they are accepted; else those up to the
first that is not, whatever follows it. -/
theorem calls_eq_iff {es us : List ε} {s : σ} :
    calls apply es s = us ↔
      us = es ∧ Accepts apply us s ∨
        us <+: es ∧ Accepts apply us.dropLast s ∧ ¬ Accepts apply us s := by
  induction es generalizing us s with
  | nil =>
    rw [calls, List.prefix_nil]
    constructor
    · rintro rfl
      exact Or.inl ⟨rfl, accepts_nil s⟩
    · rintro (⟨rfl, -⟩ | ⟨rfl, -⟩) <;> rfl
  | cons e es ih =>
    by_cases he : ∃ s', apply e s = .returned true s'
    · -- the first is accepted, and is the first of what is handed over
      obtain ⟨s', he⟩ := he
      rw [calls, he]
      dsimp only
      cases us with
      | nil =>
        refine iff_of_false nofun ?_
        rintro (⟨hnil, -⟩ | ⟨-, -, hrefused⟩)
        · cases hnil
        · exact hrefused (accepts_nil s)
      | cons u us =>
        have hstep : ∀ vs, Accepts apply (e :: vs) s ↔ Accepts apply vs s' := fun vs => by
          rw [accepts_cons, he]
          exact ⟨fun ⟨t, heq, hvs⟩ => by cases heq; exact hvs, fun hvs => ⟨s', rfl, hvs⟩⟩
        rw [List.cons.injEq, List.cons.injEq, List.cons_prefix_cons, ih]
        constructor
        · rintro ⟨rfl, ⟨rfl, hes⟩ | ⟨hpre, hlast, hrefused⟩⟩
          · exact Or.inl ⟨⟨rfl, rfl⟩, (hstep _).mpr hes⟩
          · refine Or.inr ⟨⟨rfl, hpre⟩, ?_, fun h => hrefused ((hstep _).mp h)⟩
            have hne : us ≠ [] := fun hnil => hrefused (hnil ▸ accepts_nil s')
            rw [List.dropLast_cons_of_ne_nil hne]
            exact (hstep _).mpr hlast
        · rintro (⟨⟨rfl, rfl⟩, hes⟩ | ⟨⟨rfl, hpre⟩, hlast, hrefused⟩)
          · exact ⟨rfl, Or.inl ⟨rfl, (hstep _).mp hes⟩⟩
          · refine ⟨rfl, Or.inr ⟨hpre, ?_, fun h => hrefused ((hstep _).mpr h)⟩⟩
            have hne : us ≠ [] := fun hnil => hrefused ((hstep _).mpr (hnil ▸ accepts_nil s'))
            rw [List.dropLast_cons_of_ne_nil hne] at hlast
            exact (hstep _).mp hlast
    · -- the first ends the replay
      have hcalls : calls apply (e :: es) s = [e] := by
        rw [calls]
        cases hres : apply e s with
        | panicked => rfl
        | returned ok s' =>
          cases ok with
          | false => rfl
          | true => exact absurd ⟨s', hres⟩ he
      have hrefused : ∀ vs, ¬ Accepts apply (e :: vs) s := fun vs hvs => by
        obtain ⟨s', hok, -⟩ := accepts_cons.mp hvs
        exact he ⟨s', hok⟩
      rw [hcalls]
      constructor
      · rintro rfl
        exact Or.inr ⟨List.prefix_append [e] es, accepts_nil s, hrefused []⟩
      · rintro (⟨rfl, hes⟩ | ⟨hpre, hlast, hnot⟩)
        · exact absurd hes (hrefused es)
        · cases us with
          | nil => exact absurd (accepts_nil s) hnot
          | cons u us =>
            obtain ⟨rfl, -⟩ := List.cons_prefix_cons.mp hpre
            cases us with
            | nil => rfl
            | cons v vs =>
              rw [List.dropLast_cons_of_ne_nil (List.cons_ne_nil v vs)] at hlast
              exact absurd hlast (hrefused _)

theorem advance_append (xs ys : List ε) (s : σ) :
    advance apply (xs ++ ys) s = (advance apply xs s).bind fun r =>
      (advance apply ys r.1).map fun r' => (r'.1, r.2 && r'.2) := by
  induction xs generalizing s with
  | nil => simp [advance]
  | cons e xs ih =>
    rw [List.cons_append, advance, advance]
    cases apply e s with
    | panicked => rfl
    | returned ok s' =>
      simp only [ih]
      cases advance apply xs s' with
      | none => rfl
      | some r =>
        simp only [Option.bind_some, Option.map_some, Option.map_map, Bool.and_assoc]
        rfl

theorem advance_snoc {es : List ε} {s s' s'' : σ} {b ok : Bool} {e : ε}
    (h : advance apply es s = some (s', b)) (he : apply e s' = .returned ok s'') :
    advance apply (es ++ [e]) s = some (s'', b && ok) := by
  rw [advance_append, h]
  simp [advance, he]

theorem of_advance_snoc {es : List ε} {s s'' : σ} {b : Bool} {e : ε}
    (h : advance apply (es ++ [e]) s = some (s'', b)) :
    ∃ s' b' ok, advance apply es s = some (s', b') ∧ apply e s' = .returned ok s'' ∧
      b = (b' && ok) := by
  rw [advance_append] at h
  obtain ⟨⟨s', b'⟩, hes, h⟩ := Option.bind_eq_some_iff.mp h
  cases he : apply e s' with
  | panicked => simp [advance, he] at h
  | returned ok s₁ =>
    simp only [advance, he, Option.map_some, Option.some.injEq, Prod.mk.injEq, Bool.and_true] at h
    obtain ⟨rfl, rfl⟩ := h
    exact ⟨s', b', ok, hes, he, rfl⟩

/-- **Replay reproduces an accepted history and stops on any other.** -/
theorem replay_of_advance {es : List ε} {s s' : σ} {ok : Bool}
    (h : advance apply es s = some (s', ok)) :
    replay apply es s = if ok then .done s' else .stopped := by
  induction es generalizing s ok with
  | nil =>
    cases h
    rfl
  | cons e es ih =>
    rw [advance] at h
    rw [replay]
    cases he : apply e s with
    | panicked => rw [he] at h; cases h
    | returned ok₁ s₁ =>
      rw [he] at h
      obtain ⟨⟨s₂, ok₂⟩, h₂, heq⟩ := Option.map_eq_some_iff.mp h
      cases heq
      cases ok₁ with
      | false => rfl
      | true => simpa using ih h₂

end Replay

section Sorting
variable {ε κ : Type} [LinearOrder κ] (key : ε → κ)

/-- The stable sort of a list by a key. -/
def sortBy (es : List ε) : List ε := es.mergeSort fun a b => decide (key a ≤ key b)

variable {key}

theorem sortBy_perm (es : List ε) : (sortBy key es).Perm es := List.mergeSort_perm _ _

theorem sortBy_pairwise (es : List ε) : (sortBy key es).Pairwise (fun a b => key a ≤ key b) := by
  have h := @List.pairwise_mergeSort ε (fun a b => decide (key a ≤ key b))
    (fun a b c hab hbc => decide_eq_true (le_trans (of_decide_eq_true hab) (of_decide_eq_true hbc)))
    (fun a b => by simpa using le_total (key a) (key b)) es
  exact h.imp (fun hab => of_decide_eq_true hab)

/-- In a strictly increasing list the key identifies the entry. -/
theorem eq_of_key_eq {sorted : List ε} (hs : sorted.Pairwise (fun a b => key a < key b)) {a b : ε}
    (ha : a ∈ sorted) (hb : b ∈ sorted) (h : key a = key b) : a = b := by
  induction sorted with
  | nil => cases ha
  | cons c sorted ih =>
    obtain ⟨hc, hs⟩ := List.pairwise_cons.mp hs
    rcases List.mem_cons.mp ha with rfl | ha' <;> rcases List.mem_cons.mp hb with rfl | hb'
    · rfl
    · exact absurd h (ne_of_lt (hc b hb'))
    · exact absurd h.symm (ne_of_lt (hc a ha'))
    · exact ih hs ha' hb'

/-- **The strictly increasing arrangement of a list is its sort.** -/
theorem sortBy_eq_of_perm {es sorted : List ε} (hp : es.Perm sorted)
    (hs : sorted.Pairwise (fun a b => key a < key b)) : sortBy key es = sorted := by
  refine @List.Perm.eq_of_pairwise ε (fun a b => key a ≤ key b) _ _ ?_ (sortBy_pairwise es)
    (hs.imp fun h => le_of_lt h) ((sortBy_perm es).trans hp)
  intro a b ha hb hab hba
  have ha' : a ∈ sorted := hp.mem_iff.mp ((sortBy_perm es).mem_iff.mp ha)
  exact eq_of_key_eq hs ha' hb (le_antisymm hab hba)

end Sorting
end LogReplay
