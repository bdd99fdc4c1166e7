import VirtuosoFlow.Tunnel.Python
import Mathlib.Logic.Relation

/-!
# Status machines of the tunnel's records

Proposals, transactions and jobs carry a status member, and each kind has a table
of transitions. The `transition` functions check a record against its table before
they write the new status.
-/

namespace VirtuosoFlow.Tunnel

/-- A state machine of the tunnel: its statuses as the records spell them, the status
assumed where the record has none, and the table of transitions. -/
structure Lifecycle (S : Type) where
  name : S → String
  name_injective : Function.Injective name
  all : List S
  mem_all : ∀ a, a ∈ all
  first : S
  transitions : S → List S

namespace Lifecycle

variable {S : Type} (l : Lifecycle S)

/-- The status member of a record, or the machine's first status. -/
def statusOf (record : Obj) : Json := Obj.getD record "status" (.str (l.name l.first))

/-- `TRANSITIONS.get(current, ())`. -/
def allowed : Json → Except PyExc (List S)
  | .str s => .ok (((l.all.find? fun a => l.name a = s).map l.transitions).getD [])
  | .arr _ => .error .typeError
  | .obj _ => .error .typeError
  | _ => .ok []

/-- The check that opens every `transition` function. -/
def check [DecidableEq S] (record : Obj) (new : S) : Except PyExc Unit :=
  match l.allowed (l.statusOf record) with
  | .error e => .error e
  | .ok targets =>
    if new ∈ targets then .ok ()
    else .error (.valueError (.text "cannot transition %s -> %s (allowed: %s)"
      [l.statusOf record, .str (l.name new),
        if targets = [] then .str "none" else .arr (targets.map fun a => .str (l.name a))]))

/-- The shape of the three `transition` functions: the check, then the members written. -/
def transition [DecidableEq S] (write : Obj → Obj) (new : S) (record : Obj) : Except PyExc Obj :=
  match l.check record new with
  | .error e => .error e
  | .ok () => .ok (write record)

/-- The record is in a status of the machine. -/
def At (record : Obj) (a : S) : Prop := l.statusOf record = .str (l.name a)

/-- A record moves along an edge of the table into one of `targets`, and only the members
in `touched` change. -/
def Step (targets : List S) (touched : List String) (r r' : Obj) : Prop :=
  ∃ a b, l.At r a ∧ b ∈ targets ∧ b ∈ l.transitions a ∧ l.At r' b ∧
    ∀ f ∉ touched, r'.lookup f = r.lookup f

variable {l} {record r r' : Obj} {targets : List S} {touched : List String} {a b : S}

/-- A record is in one status. -/
theorem At.eq (ha : l.At record a) (hb : l.At record b) : a = b := by
  have heq : l.name a = l.name b := by simpa [At] using ha.symm.trans hb
  exact l.name_injective heq

/-- The table found for a status of the machine is that status's own. -/
theorem allowed_name (a : S) : l.allowed (.str (l.name a)) = .ok (l.transitions a) := by
  have hfind : l.all.find? (fun b => l.name b = l.name a) = some a := by
    cases h : l.all.find? fun b => l.name b = l.name a with
    | none => simpa using List.find?_eq_none.mp h a (l.mem_all a)
    | some b =>
      have hname : l.name b = l.name a := by simpa using List.find?_some h
      rw [l.name_injective hname]
  simp [allowed, hfind]

/-- The check passes exactly along the edges of the table. -/
theorem check_eq_ok [DecidableEq S] {new : S} {u : Unit} :
    l.check record new = .ok u ↔ ∃ a, l.At record a ∧ new ∈ l.transitions a := by
  constructor
  · intro h
    unfold check at h
    cases hs : l.statusOf record with
    | str s =>
      cases hfind : l.all.find? fun a => l.name a = s with
      | none => simp [hs, allowed, hfind] at h
      | some a =>
        have hname : l.name a = s := by simpa using List.find?_some hfind
        refine ⟨a, by rw [At, hs, hname], ?_⟩
        by_contra hnot
        simp [hs, allowed, hfind, hnot] at h
    | _ => simp [hs, allowed] at h
  · rintro ⟨a, hat, hmem⟩
    have hs : l.statusOf record = .str (l.name a) := hat
    simp [check, hs, allowed_name, hmem]

/-- A transition returns what it writes, exactly along the edges of the table. -/
theorem transition_eq_ok [DecidableEq S] {write : Obj → Obj} {new : S} :
    l.transition write new r = .ok r' ↔
      (∃ a, l.At r a ∧ new ∈ l.transitions a) ∧ r' = write r := by
  unfold transition
  cases hcheck : l.check r new with
  | error e =>
    have hnot : ¬ ∃ a, l.At r a ∧ new ∈ l.transitions a := by
      intro hedge
      have hok := (check_eq_ok (u := ())).mpr hedge
      simp [hcheck] at hok
    simp [hnot]
  | ok u =>
    have hedge := check_eq_ok.mp hcheck
    simp [hedge, eq_comm]

/-- A transition that writes its target status, and only touched members, is a step. -/
theorem step_of_transition [DecidableEq S] {write : Obj → Obj} {new : S}
    (hstatus : l.At (write r) new) (hkeep : ∀ f ∉ touched, (write r).lookup f = r.lookup f)
    (hnew : new ∈ targets) (h : l.transition write new r = .ok r') :
    l.Step targets touched r r' := by
  obtain ⟨⟨a, hat, hmem⟩, rfl⟩ := transition_eq_ok.mp h
  exact ⟨a, new, hat, hnew, hmem, hstatus, hkeep⟩

/-- Members outside the touched ones survive any number of steps. -/
theorem lookup_of_steps {f : String} (hf : f ∉ touched)
    (h : Relation.ReflTransGen (l.Step targets touched) r r') : r'.lookup f = r.lookup f := by
  induction h with
  | refl => rfl
  | tail _ hstep ih =>
    obtain ⟨_, _, _, _, _, _, hkeep⟩ := hstep
    rw [hkeep f hf, ih]

/-- A record in a status that no edge to a target leaves does not move. -/
theorem eq_of_steps (hat : l.At r a) (hstuck : ∀ b ∈ targets, b ∉ l.transitions a)
    (h : Relation.ReflTransGen (l.Step targets touched) r r') : r' = r := by
  induction h with
  | refl => rfl
  | tail _ hstep ih =>
    subst ih
    obtain ⟨a', b, hat', hb, hedge, _⟩ := hstep
    rw [hat.eq hat'] at hstuck
    exact absurd hedge (hstuck b hb)

/-- Where no target leads to another, a record takes one step at most. -/
theorem step_of_steps (hstuck : ∀ a ∈ targets, ∀ b ∈ targets, b ∉ l.transitions a)
    (h : Relation.ReflTransGen (l.Step targets touched) r r') :
    r' = r ∨ l.Step targets touched r r' := by
  cases h.cases_head with
  | inl heq => exact .inl heq.symm
  | inr hhead =>
    obtain ⟨r₁, hstep, hrest⟩ := hhead
    have ⟨_, b, _, hb, _, hat, _⟩ := hstep
    obtain rfl := eq_of_steps hat (hstuck b hb) hrest
    exact .inr hstep

end Lifecycle

end VirtuosoFlow.Tunnel
