import VirtuosoFlow.Base.Dict
import Mathlib.Logic.Relation

/-!
# Stores of records that move along a relation

A store adds records and replaces a stored record by one its life cycle allows
next; it never removes a record. `Moves` is one such change and `Evolves` any
number of them. The facts below say what is known of a record from the fact that
the store holding it evolved.
-/

namespace Base

open Relation

variable {κ ρ : Type*} [DecidableEq κ]

/-- One change of a store: a new record arrives, or a stored one is advanced. -/
inductive Moves (fresh : κ → ρ → Prop) (next : ρ → ρ → Prop) : Dict κ ρ → Dict κ ρ → Prop
  | add {d : Dict κ ρ} {k : κ} {r : ρ} : d.get? k = none → fresh k r →
      Moves fresh next d (d.insert k r)
  | advance {d : Dict κ ρ} {k : κ} {r r' : ρ} : d.get? k = some r → next r r' →
      Moves fresh next d (d.insert k r')

/-- Any number of changes of a store. -/
def Evolves (fresh : κ → ρ → Prop) (next : ρ → ρ → Prop) : Dict κ ρ → Dict κ ρ → Prop :=
  ReflTransGen (Moves fresh next)

variable {fresh fresh' : κ → ρ → Prop} {next next' : ρ → ρ → Prop} {d d' : Dict κ ρ} {k : κ}

instance : Std.Refl (Evolves (κ := κ) fresh next) := ⟨fun _ => ReflTransGen.refl⟩

instance : IsTrans (Dict κ ρ) (Evolves fresh next) := ⟨fun _ _ _ => ReflTransGen.trans⟩

/-- Storing a new record is an evolution. -/
theorem Evolves.add {r : ρ} (hk : d.get? k = none) (hr : fresh k r) :
    Evolves fresh next d (d.insert k r) := .single (.add hk hr)

/-- Advancing a stored record is an evolution. -/
theorem Evolves.advance {r r' : ρ} (hk : d.get? k = some r) (hr : next r r') :
    Evolves fresh next d (d.insert k r') := .single (.advance hk hr)

/-- More new records and more advances only make more evolutions. -/
theorem Evolves.mono (hfresh : ∀ k r, fresh k r → fresh' k r) (hnext : ∀ r r', next r r' → next' r r')
    (h : Evolves fresh next d d') : Evolves fresh' next' d d' := by
  refine ReflTransGen.mono ?_ _ _ h
  intro _ _ hmove
  cases hmove with
  | add hk hr => exact .add hk (hfresh _ _ hr)
  | advance hk hr => exact .advance hk (hnext _ _ hr)

/-- One change leaves a stored record as it is or advances it. -/
theorem Moves.advanced (h : Moves fresh next d d') {r : ρ} (hr : d.get? k = some r) :
    ∃ r', d'.get? k = some r' ∧ ReflTransGen next r r' := by
  cases h with
  | @add k₀ r₀ hk₀ _ =>
    have hne : k ≠ k₀ := by rintro rfl; simp [hk₀] at hr
    exact ⟨r, by simpa [hne] using hr, .refl⟩
  | @advance k₀ r₀ r₀' hk₀ hnext =>
    by_cases hk : k = k₀
    · subst hk
      obtain rfl : r₀ = r := by simpa [hk₀] using hr
      exact ⟨r₀', by simp, .single hnext⟩
    · exact ⟨r, by simpa [hk] using hr, .refl⟩

/-- A stored record stays stored, in a state it can reach. -/
theorem Evolves.advanced (h : Evolves fresh next d d') {r : ρ} (hr : d.get? k = some r) :
    ∃ r', d'.get? k = some r' ∧ ReflTransGen next r r' := by
  induction h with
  | refl => exact ⟨r, hr, .refl⟩
  | tail _ hmove ih =>
    obtain ⟨r₁, hr₁, hpath⟩ := ih
    obtain ⟨r₂, hr₂, hlast⟩ := hmove.advanced hr₁
    exact ⟨r₂, hr₂, hpath.trans hlast⟩

/-- A stored record was stored before, or arrived, in a state from which it got here. -/
theorem Evolves.origin (h : Evolves fresh next d d') {r' : ρ} (hr' : d'.get? k = some r') :
    (∃ r, d.get? k = some r ∧ ReflTransGen next r r') ∨
      (d.get? k = none ∧ ∃ r, fresh k r ∧ ReflTransGen next r r') := by
  induction h generalizing r' with
  | refl => exact .inl ⟨r', hr', .refl⟩
  | @tail d₁ d₂ hprior hmove ih =>
    cases hmove with
    | @add k₀ r₀ hk₀ hfresh =>
      by_cases hk : k = k₀
      · subst hk
        obtain rfl : r₀ = r' := by simpa using hr'
        cases hd : d.get? k with
        | none => exact .inr ⟨rfl, r₀, hfresh, .refl⟩
        | some r =>
          obtain ⟨r₁, hr₁, _⟩ := Evolves.advanced hprior hd
          simp [hk₀] at hr₁
      · exact ih (by simpa [hk] using hr')
    | @advance k₀ r₀ r₀' hk₀ hnext =>
      by_cases hk : k = k₀
      · subst hk
        obtain rfl : r₀' = r' := by simpa using hr'
        rcases ih hk₀ with ⟨r, hr, hpath⟩ | ⟨hnone, r, hr, hpath⟩
        · exact .inl ⟨r, hr, hpath.tail hnext⟩
        · exact .inr ⟨hnone, r, hr, hpath.tail hnext⟩
      · exact ih (by simpa [hk] using hr')

/-- A set of records that no advance enters is not left behind along a path. -/
theorem closed_of_reflTransGen {G : ρ → Prop} (hnext : ∀ r r', next r r' → G r' → G r)
    {r r' : ρ} (h : ReflTransGen next r r') (hG : G r') : G r := by
  induction h with
  | refl => exact hG
  | tail _ hstep ih => exact ih (hnext _ _ hstep hG)

/-- A set that neither arriving records nor advances enter was not entered: a record
found in it was in it before. -/
theorem Evolves.not_entered {G : ρ → Prop} (h : Evolves fresh next d d')
    (hfresh : ∀ r, d.get? k = none → fresh k r → ¬ G r) (hnext : ∀ r r', next r r' → G r' → G r)
    {r' : ρ} (hr' : d'.get? k = some r') (hG : G r') : ∃ r, d.get? k = some r ∧ G r := by
  rcases h.origin hr' with ⟨r, hr, hpath⟩ | ⟨hnone, r, hr, hpath⟩
  · exact ⟨r, hr, closed_of_reflTransGen hnext hpath hG⟩
  · exact absurd (closed_of_reflTransGen hnext hpath hG) (hfresh r hnone hr)

end Base
