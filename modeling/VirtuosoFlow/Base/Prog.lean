import Mathlib.Order.Defs.Unbundled

/-!
# Programs that raise without undoing their effects

An imperative method that raises has already changed the objects it touched. A
`Prog` is a state transformer whose outcome is a value or an exception and which
returns the state it reached in both cases. `Keeps` is the rule of such programs
used most: a reflexive and transitive relation that every primitive respects
relates the first and the last state of every run, whatever its outcome.
-/

namespace Base

/-- A computation over states `σ` that may raise `ε`, keeping the state it reached. -/
def Prog (ε σ α : Type) : Type := σ → Except ε α × σ

namespace Prog

variable {ε σ τ α β : Type}

/-- Outcome and last state of a run from a given state. -/
def exec (m : Prog ε σ α) (s : σ) : Except ε α × σ := m s

instance : Monad (Prog ε σ) where
  pure a := fun s => (.ok a, s)
  bind m f := fun s =>
    match m.exec s with
    | (.ok a, s') => (f a).exec s'
    | (.error e, s') => (.error e, s')

instance : MonadExceptOf ε (Prog ε σ) where
  throw e := fun s => (.error e, s)
  tryCatch m h := fun s =>
    match m.exec s with
    | (.ok a, s') => (.ok a, s')
    | (.error e, s') => (h e).exec s'

instance : MonadStateOf σ (Prog ε σ) where
  get := fun s => (.ok s, s)
  set s := fun _ => (.ok ⟨⟩, s)
  modifyGet f := fun s => (.ok (f s).1, (f s).2)

/-- Run a program on a component of a larger state. -/
def zoom (view : τ → σ) (put : σ → τ → τ) (m : Prog ε σ α) : Prog ε τ α := fun t =>
  ((m.exec (view t)).1, put (m.exec (view t)).2 t)

/-- Replace every exception a program raises. -/
def mapError (f : ε → ε) (m : Prog ε σ α) : Prog ε σ α := fun s =>
  (match (m.exec s).1 with
    | .ok a => .ok a
    | .error e => .error (f e), (m.exec s).2)

/-- Run a program for its effect and drop the exceptions selected by `p`. -/
def suppress (p : ε → Bool) (m : Prog ε σ α) : Prog ε σ Unit := fun s =>
  (match (m.exec s).1 with
    | .ok _ => .ok ()
    | .error e => if p e then .ok () else .error e, (m.exec s).2)

/-- Lift a pure outcome that may be an exception. -/
def ofExcept : Except ε α → Prog ε σ α
  | .ok a => pure a
  | .error e => throw e

section Exec

/-- `pure` gives its value and changes nothing. -/
@[simp] theorem exec_pure (a : α) (s : σ) : (pure a : Prog ε σ α).exec s = (.ok a, s) := rfl

/-- `throw` raises and changes nothing. -/
@[simp] theorem exec_throw (e : ε) (s : σ) :
    (throw e : Prog ε σ α).exec s = (.error e, s) := rfl

/-- `get` gives the state. -/
@[simp] theorem exec_get (s : σ) : (get : Prog ε σ σ).exec s = (.ok s, s) := rfl

/-- `set` replaces the state. -/
@[simp] theorem exec_set (s s' : σ) : (set s' : Prog ε σ PUnit).exec s = (.ok ⟨⟩, s') := rfl

/-- `modify` changes the state. -/
@[simp] theorem exec_modify (f : σ → σ) (s : σ) :
    (modify f : Prog ε σ PUnit).exec s = (.ok ⟨⟩, f s) := rfl

/-- A sequence continues with the value and state of its first part, or stops there. -/
theorem exec_bind (m : Prog ε σ α) (f : α → Prog ε σ β) (s : σ) :
    (m >>= f).exec s =
      match m.exec s with
      | (.ok a, s') => (f a).exec s'
      | (.error e, s') => (.error e, s') := rfl

/-- The sequence after a first part that returned. -/
theorem exec_bind_ok {m : Prog ε σ α} {f : α → Prog ε σ β} {s s' : σ} {a : α}
    (h : m.exec s = (.ok a, s')) : (m >>= f).exec s = (f a).exec s' := by
  rw [exec_bind, h]

/-- The sequence after a first part that raised. -/
theorem exec_bind_error {m : Prog ε σ α} {f : α → Prog ε σ β} {s s' : σ} {e : ε}
    (h : m.exec s = (.error e, s')) : (m >>= f).exec s = (.error e, s') := by
  rw [exec_bind, h]

/-- A sequence that returned did so through both of its parts. -/
theorem exec_bind_eq_ok {m : Prog ε σ α} {f : α → Prog ε σ β} {s s'' : σ} {b : β}
    (h : (m >>= f).exec s = (.ok b, s'')) :
    ∃ a s', m.exec s = (.ok a, s') ∧ (f a).exec s' = (.ok b, s'') := by
  rw [exec_bind] at h
  cases hm : m.exec s with
  | mk r s' =>
    cases r with
    | ok a => rw [hm] at h; exact ⟨a, s', rfl, h⟩
    | error e => rw [hm] at h; simp at h

/-- A program on a component changes that component. -/
@[simp] theorem exec_zoom (view : τ → σ) (put : σ → τ → τ) (m : Prog ε σ α) (t : τ) :
    (m.zoom view put).exec t = ((m.exec (view t)).1, put (m.exec (view t)).2 t) := rfl

/-- Renaming exceptions, in one equation. -/
theorem exec_mapError (f : ε → ε) (m : Prog ε σ α) (s : σ) :
    (m.mapError f).exec s =
      (match (m.exec s).1 with
        | .ok a => .ok a
        | .error e => .error (f e), (m.exec s).2) := rfl

/-- Another error leaves the same state. -/
@[simp] theorem exec_mapError_snd (f : ε → ε) (m : Prog ε σ α) (s : σ) :
    ((m.mapError f).exec s).2 = (m.exec s).2 := rfl

/-- Renaming exceptions leaves the runs that return alone. -/
theorem exec_mapError_eq_ok {f : ε → ε} {m : Prog ε σ α} {s s' : σ} {a : α} :
    (m.mapError f).exec s = (.ok a, s') ↔ m.exec s = (.ok a, s') := by
  unfold mapError exec
  cases hm : m s with
  | mk r s₁ => cases r <;> simp [hm]

/-- Dropping exceptions, in one equation. -/
theorem exec_suppress (p : ε → Bool) (m : Prog ε σ α) (s : σ) :
    (m.suppress p).exec s =
      (match (m.exec s).1 with
        | .ok _ => .ok ()
        | .error e => if p e then .ok () else .error e, (m.exec s).2) := rfl

/-- An error that is dropped leaves the same state. -/
@[simp] theorem exec_suppress_snd (p : ε → Bool) (m : Prog ε σ α) (s : σ) :
    ((m.suppress p).exec s).2 = (m.exec s).2 := rfl

/-- A pure outcome changes nothing. -/
@[simp] theorem exec_ofExcept (r : Except ε α) (s : σ) :
    (ofExcept r : Prog ε σ α).exec s = (r, s) := by cases r <;> rfl

end Exec

section Keeps

/-- Every run relates its first state to the state it ends in, returned or raised. -/
def Keeps (R : σ → σ → Prop) (m : Prog ε σ α) : Prop := ∀ s, R s (m.exec s).2

variable {R : σ → σ → Prop}

/-- A pure value keeps a reflexive relation. -/
theorem Keeps.pure [Std.Refl R] (a : α) : Keeps R (pure a : Prog ε σ α) := fun s =>
  Std.Refl.refl s

/-- So does raising. -/
theorem Keeps.throw [Std.Refl R] (e : ε) : Keeps R (throw e : Prog ε σ α) := fun s =>
  Std.Refl.refl s

/-- So does reading the state. -/
theorem Keeps.get [Std.Refl R] : Keeps R (get : Prog ε σ σ) := fun s => Std.Refl.refl s

/-- So does a pure outcome. -/
theorem Keeps.ofExcept [Std.Refl R] (r : Except ε α) : Keeps R (ofExcept r : Prog ε σ α) := by
  intro s
  rw [exec_ofExcept]
  exact Std.Refl.refl s

/-- The rule of sequences: the second part may use the value, not the relation. -/
theorem Keeps.bind [IsTrans σ R] {m : Prog ε σ α} {f : α → Prog ε σ β}
    (hm : Keeps R m) (hf : ∀ a, Keeps R (f a)) : Keeps R (m >>= f) := by
  intro s
  have hfirst := hm s
  rw [exec_bind]
  cases hexec : m.exec s with
  | mk r s' =>
    rw [hexec] at hfirst
    cases r with
    | ok a => exact IsTrans.trans _ _ _ hfirst (hf a s')
    | error e => exact hfirst

/-- What the rest of a sequence keeps holds between the state its first part reached and
the last state. -/
theorem Keeps.of_rest [Std.Refl R] {m : Prog ε σ α} {f : α → Prog ε σ β}
    (hf : ∀ a, Keeps R (f a)) (s : σ) : R (m.exec s).2 ((m >>= f).exec s).2 := by
  rw [exec_bind]
  cases m.exec s with
  | mk r s' =>
    cases r with
    | ok a => exact hf a s'
    | error e => exact Std.Refl.refl s'

/-- A choice keeps what both of its branches keep. -/
theorem Keeps.ite {c : Prop} [Decidable c] {m m' : Prog ε σ α} (hm : Keeps R m)
    (hm' : Keeps R m') : Keeps R (if c then m else m') := by
  split
  · exact hm
  · exact hm'

/-- Another error keeps the same. -/
theorem Keeps.mapError {f : ε → ε} {m : Prog ε σ α} (hm : Keeps R m) :
    Keeps R (m.mapError f) := hm

/-- An error that is dropped keeps the same. -/
theorem Keeps.suppress {p : ε → Bool} {m : Prog ε σ α} (hm : Keeps R m) :
    Keeps R (m.suppress p) := hm

/-- A relation between components holds of a program run on that component. -/
theorem Keeps.zoom {view : τ → σ} {put : σ → τ → τ} {S : τ → τ → Prop} {m : Prog ε σ α}
    (hm : Keeps R m) (hput : ∀ t s, R (view t) s → S t (put s t)) :
    Keeps S (m.zoom view put) := fun t => hput t _ (hm (view t))

/-- A weaker relation is kept as well. -/
theorem Keeps.mono {S : σ → σ → Prop} {m : Prog ε σ α} (hm : Keeps R m)
    (hRS : ∀ s s', R s s' → S s s') : Keeps S m := fun s => hRS _ _ (hm s)

end Keeps

/-- A part of the state is the same before and after. -/
def Fixes {ρ : Type} (view : σ → ρ) (s s' : σ) : Prop := view s' = view s

instance {ρ : Type} (view : σ → ρ) : Std.Refl (Fixes view) := ⟨fun _ => rfl⟩

instance {ρ : Type} (view : σ → ρ) : IsTrans σ (Fixes view) := ⟨fun _ _ _ h h' => h'.trans h⟩

/-- The program leaves the state as it finds it. -/
abbrev Reads (m : Prog ε σ α) : Prop := Keeps (Fixes fun s => s) m

/-- A program that only reads keeps every reflexive relation. -/
theorem Reads.keeps {R : σ → σ → Prop} [Std.Refl R] {m : Prog ε σ α} (h : Reads m) : Keeps R m := by
  intro s
  have hsame : (m.exec s).2 = s := h s
  rw [hsame]
  exact Std.Refl.refl s

/-- The outcome of a program that only reads says all about its run. -/
theorem Reads.exec_of_fst {m : Prog ε σ α} (h : Reads m) {s : σ} {r : Except ε α}
    (hr : (m.exec s).1 = r) : m.exec s = (r, s) :=
  Prod.ext hr (h s)

/-- Reading a component is reading. -/
theorem Reads.zoom {view : τ → σ} {put : σ → τ → τ} {m : Prog ε σ α} (hm : Reads m)
    (hput : ∀ t, put (view t) t = t) : Reads (m.zoom view put) := by
  intro t
  have hsame : (m.exec (view t)).2 = view t := hm (view t)
  rw [Fixes, exec_zoom, hsame]
  exact hput t

section Raises

variable {ρ : Type} {view : σ → ρ} {s : σ}

/-- Where the program raises from a state, a part of the state is as before. -/
def RaisesClean (view : σ → ρ) (m : Prog ε σ α) (s : σ) : Prop :=
  ∀ e, (m.exec s).1 = .error e → view (m.exec s).2 = view s

/-- Raising at once leaves the view. -/
theorem raisesClean_throw (e : ε) : RaisesClean view (throw e : Prog ε σ α) s := fun _ _ => rfl

/-- A program that does not change the part never does when it raises. -/
theorem raisesClean_of_same {m : Prog ε σ α} (h : view (m.exec s).2 = view s) : RaisesClean view m s :=
  fun _ _ => h

/-- Under some conditions, told apart by `ι`, the program may change the part; if one of them holds it
returns or changes it. Then it raises clean exactly if it returns under each that holds. -/
theorem raisesClean_iff {ι : Type} {Changes Returns : ι → Prop} {m : Prog ε σ α}
    (hsame : (∀ i, ¬ Changes i) → RaisesClean view m s)
    (hchanges : ∀ i, Changes i → ((m.exec s).1.isOk = true ↔ Returns i) ∧
      (¬ Returns i → view (m.exec s).2 ≠ view s)) :
    RaisesClean view m s ↔ ∀ i, Changes i → Returns i := by
  constructor
  · intro hclean i hi
    obtain ⟨hreturns, hchanged⟩ := hchanges i hi
    cases hout : (m.exec s).1 with
    | ok a => exact hreturns.mp (by rw [hout]; rfl)
    | error e => exact Classical.byContradiction fun hnot => hchanged hnot (hclean e hout)
  · intro hall e hout
    refine hsame (fun i hi => ?_) e hout
    have hok := (hchanges i hi).1.mpr (hall i hi)
    rw [hout] at hok
    cases hok

/-- Before the part is changed the rest of the sequence decides. -/
theorem raisesClean_bind {m : Prog ε σ α} {f : α → Prog ε σ β} (hm : Keeps (Fixes view) m) :
    RaisesClean view (m >>= f) s ↔ ∀ a s', m.exec s = (.ok a, s') → RaisesClean view (f a) s' := by
  have hfirst := hm s
  unfold RaisesClean
  rw [exec_bind]
  cases hexec : m.exec s with
  | mk r s₁ =>
    rw [hexec] at hfirst
    have hsame : view s₁ = view s := hfirst
    cases r with
    | error e => simp [hsame]
    | ok a => simp [hsame]

/-- The same after a pure part. -/
theorem raisesClean_ofExcept_bind {r : Except ε α} {f : α → Prog ε σ β} :
    RaisesClean view (ofExcept r >>= f) s ↔ ∀ a, r = .ok a → RaisesClean view (f a) s := by
  rw [raisesClean_bind (.ofExcept r)]
  simp only [exec_ofExcept, Prod.mk.injEq]
  constructor
  · intro h a ha
    exact h a s ⟨ha, rfl⟩
  · rintro h a s' ⟨ha, rfl⟩
    exact h a ha

/-- A program on a component raises cleanly exactly if it does so on the component alone. -/
theorem raisesClean_zoom {τ ρ' : Type} {component : τ → σ} {put : σ → τ → τ} {outer : τ → ρ'} {m : Prog ε σ α}
    {t : τ} (h : outer (put (m.exec (component t)).2 t) = outer t ↔
      view (m.exec (component t)).2 = view (component t)) :
    RaisesClean outer (m.zoom component put) t ↔ RaisesClean view m (component t) := by
  unfold RaisesClean
  rw [exec_zoom]
  exact forall_congr' fun e => imp_congr_right fun _ => h

end Raises

section Gives

/-- Every value the program returns has the property. -/
def Gives (P : α → Prop) (m : Prog ε σ α) : Prop :=
  ∀ s a s', m.exec s = (.ok a, s') → P a

variable {P : α → Prop} {Q : β → Prop}

/-- A pure value is what is given. -/
theorem Gives.pure {a : α} (ha : P a) : Gives P (pure a : Prog ε σ α) := by
  intro s b s' h
  simp only [exec_pure, Prod.mk.injEq, Except.ok.injEq] at h
  rw [← h.1]
  exact ha

/-- Raising gives nothing. -/
theorem Gives.throw (e : ε) : Gives P (throw e : Prog ε σ α) := by
  intro s a s' h
  simp at h

/-- A pure outcome gives its value. -/
theorem Gives.ofExcept {r : Except ε α} (hr : ∀ a, r = .ok a → P a) :
    Gives P (ofExcept r : Prog ε σ α) := by
  intro s a s' h
  rw [exec_ofExcept] at h
  exact hr a (Prod.ext_iff.mp h).1

/-- The rule of sequences: the last part decides, and may use what the first returned. -/
theorem Gives.bind {m : Prog ε σ α} {f : α → Prog ε σ β} (hm : Gives P m)
    (hf : ∀ a, P a → Gives Q (f a)) : Gives Q (m >>= f) := by
  intro s b s' h
  obtain ⟨a, s₁, hfirst, hrest⟩ := exec_bind_eq_ok h
  exact hf a (hm s a s₁ hfirst) s₁ b s' hrest

/-- The last part of a sequence decides. -/
theorem Gives.last {m : Prog ε σ α} {f : α → Prog ε σ β} (hf : ∀ a, Gives Q (f a)) :
    Gives Q (m >>= f) :=
  Gives.bind (P := fun _ => True) (fun _ _ _ _ => trivial) fun a _ => hf a

end Gives

end Prog

end Base
