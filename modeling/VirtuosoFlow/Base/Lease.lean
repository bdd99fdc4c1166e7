import VirtuosoFlow.Base.Run

/-!
# Leases

A lease is held from a renewal on, as long as nothing that comes later ends it. The time of the last renewal is
what decides.
-/

namespace Base

variable {ε τ σ ι ο : Type}

/-- Which events renew a lease, when they come, and which last renewals they leave in force. -/
structure Lease (ε τ : Type) where
  renews : ε → Prop
  time : ε → τ
  spares : ε → τ → Prop

/-- The last renewal was at this time, and all that came later spares it. -/
def Lease.HeldSince (L : Lease ε τ) (h : List ε) (t : τ) : Prop :=
  ∃ h₁ e h₂, h = h₁ ++ e :: h₂ ∧ L.renews e ∧ L.time e = t ∧ ∀ e' ∈ h₂, ¬ L.renews e' ∧ L.spares e' t

namespace Lease

variable {L : Lease ε τ} {h : List ε} {t : τ}

/-- Before anything has happened no lease is held. -/
theorem not_heldSince_nil : ¬ L.HeldSince [] t := by
  rintro ⟨h₁, e, h₂, hsplit, -⟩
  exact List.append_ne_nil_of_right_ne_nil h₁ (List.cons_ne_nil e h₂) hsplit.symm

/-- One event more renews the lease, or leaves it as it is. -/
theorem heldSince_snoc (e : ε) : L.HeldSince (h ++ [e]) t ↔
    (L.renews e ∧ L.time e = t) ∨ (L.HeldSince h t ∧ ¬ L.renews e ∧ L.spares e t) := by
  constructor
  · rintro ⟨h₁, a, h₂, hsplit, hrenews, htime, hlater⟩
    rcases List.eq_nil_or_concat h₂ with rfl | ⟨rest, last, rfl⟩
    · obtain ⟨-, hlast⟩ := List.append_inj' hsplit rfl
      obtain rfl : e = a := by simpa using hlast
      exact .inl ⟨hrenews, htime⟩
    · rw [List.concat_eq_append, ← List.cons_append, ← List.append_assoc] at hsplit
      obtain ⟨hfront, hlast⟩ := List.append_inj' hsplit rfl
      obtain rfl : e = last := by simpa using hlast
      rw [List.concat_eq_append] at hlater
      exact .inr ⟨⟨h₁, a, rest, hfront, hrenews, htime, fun e' he' => hlater e' (List.mem_append_left _ he')⟩,
        hlater e (by simp)⟩
  · rintro (⟨hrenews, htime⟩ | ⟨⟨h₁, a, h₂, rfl, hrenews, htime, hlater⟩, hkept⟩)
    · exact ⟨h, e, [], rfl, hrenews, htime, by simp⟩
    · refine ⟨h₁, a, h₂ ++ [e], by simp, hrenews, htime, fun e' he' => ?_⟩
      rcases List.mem_append.mp he' with he' | he'
      · exact hlater e' he'
      · exact List.mem_singleton.mp he' ▸ hkept

/-- What no initial state has, and every admitted step of a machine treats as a lease, is a lease over every run. -/
theorem heldSince_iff {M : Machine σ ι ο} {ok : σ → ι → Prop} {L : Lease (Entry σ ι ο) τ} {held : σ → τ → Prop}
    {I : σ → Prop} {h : List (Entry σ ι ο)} {s : σ} (hinit : ∀ s, M.init s → I s ∧ ∀ t, ¬ held s t)
    (hstep : ∀ s i, ok s i → I s → I (M.step i s).2 ∧ ∀ t, held (M.step i s).2 t ↔
      (L.renews (M.fire s i) ∧ L.time (M.fire s i) = t) ∨
        (held s t ∧ ¬ L.renews (M.fire s i) ∧ L.spares (M.fire s i) t))
    (hrun : Run M ok h s) : I s ∧ ∀ t, held s t ↔ L.HeldSince h t := by
  induction hrun with
  | init hs => exact ⟨(hinit _ hs).1, fun t => iff_of_false ((hinit _ hs).2 t) not_heldSince_nil⟩
  | step _ hok ih =>
    obtain ⟨hinv, hheld⟩ := ih
    obtain ⟨hnext, hlease⟩ := hstep _ _ hok hinv
    exact ⟨hnext, fun t => by rw [hlease t, heldSince_snoc, hheld t]⟩

end Lease

end Base
