import VirtuosoFlow.Tunnel.Replies

/-!
# What the permission check covers

`transaction.create` checks one of the two lists of a transaction, against the patterns of the
request or else against those of the server. This file says which targets of a stored transaction
the check covers, and whose patterns allow them.
-/

namespace VirtuosoFlow.Tunnel

open Base

/-- The patterns a `transaction.create` request is checked against. -/
def effectivePermissions (params : Obj) (server : Json) : Json :=
  pyOr (pyOr (Obj.get params "permissions") server) (.obj [])

/-- The list of a transaction that is checked: the values after, or else those before. -/
def checkedChanges (u : Obj) : Json := pyOr (pyOr (Obj.get u "after") (Obj.get u "before")) (.arr [])

/-- The targets that the entries of a list name. -/
def namedTargets (env : Env) : Json → List String
  | .arr items => items.filterMap fun change => (targetOf env change).toOption
  | _ => []

/-- A set of permissions allows a target. -/
def Allows (env : Env) (perms : Json) (target : String) : Prop :=
  ∃ allow deny, attrGet perms "allow_modify" = .ok allow ∧ attrGet perms "deny_modify" = .ok deny ∧
    isAllowed env target allow deny = .ok none

section Check

variable {env : Env} {params u : Obj} {t : Tunnel}

/-- Without a violation each change names a target that is allowed. -/
theorem violationsOf_nil {allow deny : Json} {changes : List Json}
    (h : violationsOf env allow deny changes = .ok []) :
    ∀ change ∈ changes, ∃ target, targetOf env change = .ok target ∧
      isAllowed env target allow deny = .ok none := by
  induction changes with
  | nil => simp
  | cons change rest ih =>
    rw [violationsOf] at h
    cases htarget : targetOf env change with
    | error e =>
      rw [htarget] at h
      cases h
    | ok target =>
      rw [htarget] at h
      cases hallowed : isAllowed env target allow deny with
      | error e =>
        simp only [hallowed, Bind.bind, Except.bind, reduceCtorEq] at h
      | ok refused =>
        cases hrest : violationsOf env allow deny rest with
        | error e =>
          simp only [hallowed, hrest, Bind.bind, Except.bind, reduceCtorEq] at h
        | ok others =>
          simp only [hallowed, hrest, Bind.bind, Except.bind, Pure.pure, Except.pure, Except.ok.injEq,
            List.append_eq_nil_iff] at h
          obtain ⟨hnone, rfl⟩ := h
          obtain rfl : refused = none := by
            cases refused with
            | none => rfl
            | some reason => simp at hnone
          intro c hc
          rcases List.mem_cons.mp hc with rfl | hc
          · exact ⟨target, htarget, hallowed⟩
          · exact ih hrest c hc

/-- A list without violations names only targets that are allowed. -/
theorem violations_nil {changes allow deny : Json} {target : String}
    (h : violations env changes allow deny = .ok [])
    (hnamed : target ∈ namedTargets env changes) : isAllowed env target allow deny = .ok none := by
  cases changes with
  | arr items =>
    obtain ⟨change, hchange, hname⟩ := List.mem_filterMap.mp hnamed
    have hitems : pyOr (.arr items) (.arr []) = .arr items := by
      cases items <;> rfl
    rw [violations, hitems] at h
    obtain ⟨target', htarget', hallowed⟩ := violationsOf_nil h change hchange
    rw [htarget'] at hname
    obtain rfl : target' = target := by simpa [Except.toOption] using hname
    exact hallowed
  | _ => simp [namedTargets] at hnamed

/-- What passes the check is allowed by the patterns in force. -/
theorem checkPermissions_allows {target : String}
    (h : ((checkPermissions env params u).exec t).1 = .ok ())
    (hnamed : target ∈ namedTargets env (checkedChanges u)) :
    Allows env (effectivePermissions params t.permissions) target := by
  have hexec := (checkPermissions_reads u).exec_of_fst h
  unfold checkPermissions at hexec
  obtain ⟨t₁, t₂, hget, hexec⟩ := Prog.exec_bind_eq_ok hexec
  obtain ⟨rfl, rfl⟩ : t = t₁ ∧ t = t₂ := by simpa using hget
  obtain ⟨allow, t₃, hallow, hexec⟩ := Prog.exec_bind_eq_ok hexec
  obtain ⟨deny, t₄, hdeny, hexec⟩ := Prog.exec_bind_eq_ok hexec
  obtain ⟨viol, t₅, hviol, hexec⟩ := Prog.exec_bind_eq_ok hexec
  rw [Prog.exec_ofExcept, Prod.mk.injEq] at hallow hdeny hviol
  have hnone : viol = [] := by
    cases viol with
    | nil => rfl
    | cons v rest => simp at hexec
  rw [hnone] at hviol
  exact ⟨allow, deny, hallow.1, hdeny.1, violations_nil hviol.1 hnamed⟩

/-- What is stored was checked. -/
theorem storesTransaction_allows {i : Key} {target : String} (h : StoresTransaction env params t i u)
    (hnamed : target ∈ namedTargets env (checkedChanges u)) :
    Allows env (effectivePermissions params t.permissions) target := by
  obtain ⟨data, data', t₁, -, hbound, -, hpermitted, -⟩ := h
  obtain rfl : t = t₁ := by
    have hreads : ((bindActor params data).exec t).2 = t := bindActor_reads data t
    rw [hbound] at hreads
    exact hreads.symm
  exact checkPermissions_allows hpermitted hnamed

/-- The values after are the ones that are checked, if there are any. -/
theorem checkedChanges_after (h : (Obj.get u "after").truthy = true) : checkedChanges u = Obj.get u "after" := by
  rw [checkedChanges, pyOr, pyOr, if_pos h, if_pos h]

/-- A list that is false names nothing. -/
theorem namedTargets_of_false {v : Json} (h : v.truthy = false) : namedTargets env v = [] := by
  cases v with
  | arr items =>
    cases items with
    | nil => rfl
    | cons item items => simp [Json.truthy] at h
  | _ => rfl

/-- Without values after, what the values before name is checked. -/
theorem namedTargets_checkedChanges (h : (Obj.get u "after").truthy = false) :
    namedTargets env (checkedChanges u) = namedTargets env (Obj.get u "before") := by
  rw [checkedChanges]
  conv_lhs => rw [show pyOr (Obj.get u "after") (Obj.get u "before") = Obj.get u "before" from
    if_neg (by simp [h])]
  cases hbefore : (Obj.get u "before").truthy with
  | true => rw [pyOr, if_pos hbefore]
  | false =>
    rw [pyOr, if_neg (by simp [hbefore]), namedTargets_of_false hbefore]
    rfl

end Check

section Accepted

variable {env : Env} {params : Obj} {t t' : Tunnel} {reply : Json}

/-- The patterns in force allow every target that a transaction names, before or after. -/
def Covered (env : Env) (perms : Json) (u : Obj) : Prop :=
  (∀ target ∈ namedTargets env (Obj.get u "after"), Allows env perms target) ∧
    ∀ target ∈ namedTargets env (Obj.get u "before"), Allows env perms target

/-- The check of one list covers both just when there are no values after, or each target that only
the values before name is allowed. -/
theorem accepted_covered_iff (h : (mTransactionCreate env params).exec t = (.ok reply, t')) :
    ∃ i u, reply = .obj [("transaction", .obj u)] ∧
      t'.transactions.records = t.transactions.records.insert i u ∧
      (Covered env (effectivePermissions params t.permissions) u ↔
        ((Obj.get u "after").truthy = true → ∀ target ∈ namedTargets env (Obj.get u "before"),
          target ∉ namedTargets env (Obj.get u "after") →
            Allows env (effectivePermissions params t.permissions) target)) := by
  obtain ⟨i, u, hstores, hreply, hrecords⟩ := mTransactionCreate_ok h
  refine ⟨i, u, hreply, hrecords, ?_⟩
  have hchecked : ∀ target ∈ namedTargets env (checkedChanges u),
      Allows env (effectivePermissions params t.permissions) target :=
    fun target hnamed => storesTransaction_allows hstores hnamed
  constructor
  · intro hcovered _ target hbefore _
    exact hcovered.2 target hbefore
  · intro hrest
    cases hafter : (Obj.get u "after").truthy with
    | true =>
      rw [checkedChanges_after hafter] at hchecked
      refine ⟨hchecked, fun target hbefore => ?_⟩
      by_cases hboth : target ∈ namedTargets env (Obj.get u "after")
      · exact hchecked target hboth
      · exact hrest hafter target hbefore hboth
    | false =>
      rw [namedTargets_checkedChanges hafter] at hchecked
      refine ⟨fun target hnamed => ?_, hchecked⟩
      rw [namedTargets_of_false hafter] at hnamed
      cases hnamed

/-- A change of a parameter, for examples. -/
def sampleValue (inst param : String) : Json :=
  .obj [("instance", .str inst), ("param", .str param), ("value", .str "1u")]

/-- A request that sets `M1.w` and records some values before, where supplies are denied. -/
def sampleDenying (before : List Json) : Obj :=
  [("transaction", .obj [("transaction_id", .str "t_1"), ("before", .arr before),
      ("after", .arr [sampleValue "M1" "w"])]),
    ("permissions", .obj [("deny_modify", .arr [.str "VDD.*"])])]

/-- The transaction that is stored for it. -/
def sampleDenyingRecord (before : List Json) : Obj :=
  makeTransaction .sample [("transaction_id", .str "t_1"), ("before", .arr before),
    ("after", .arr [sampleValue "M1" "w"])]

/-- A transaction within its own permissions. -/
theorem accepted_covered_iff_sample : ∃ i u,
    Json.obj [("transaction", .obj (sampleDenyingRecord [sampleValue "M1" "w"]))] =
      .obj [("transaction", .obj u)] ∧
    ((mTransactionCreate .sample (sampleDenying [sampleValue "M1" "w"])).exec
        sampleStart.tunnel).2.transactions.records = sampleStart.tunnel.transactions.records.insert i u ∧
    (Covered .sample (effectivePermissions (sampleDenying [sampleValue "M1" "w"])
        sampleStart.tunnel.permissions) u ↔
      ((Obj.get u "after").truthy = true → ∀ target ∈ namedTargets .sample (Obj.get u "before"),
        target ∉ namedTargets .sample (Obj.get u "after") →
          Allows .sample (effectivePermissions (sampleDenying [sampleValue "M1" "w"])
            sampleStart.tunnel.permissions) target)) :=
  accepted_covered_iff rfl

/-- A transaction is accepted although a rollback of it would write a denied target. -/
theorem uncovered_before : ∃ reply t' u,
    (mTransactionCreate .sample (sampleDenying [sampleValue "VDD" "dc"])).exec sampleStart.tunnel =
      (.ok reply, t') ∧ reply = .obj [("transaction", .obj u)] ∧
    ¬ Covered .sample (effectivePermissions (sampleDenying [sampleValue "VDD" "dc"])
      sampleStart.tunnel.permissions) u := by
  refine ⟨_, _, sampleDenyingRecord [sampleValue "VDD" "dc"], rfl, rfl, ?_⟩
  intro hcovered
  have hnamed : "VDD.dc" ∈ namedTargets .sample
      (Obj.get (sampleDenyingRecord [sampleValue "VDD" "dc"]) "before") := List.mem_singleton.mpr rfl
  obtain ⟨allow, deny, hallow, hdeny, hallowed⟩ := hcovered.2 _ hnamed
  obtain rfl : Json.null = allow := Except.ok.inj hallow
  obtain rfl : Json.arr [.str "VDD.*"] = deny := Except.ok.inj hdeny
  have hdenied : isAllowed .sample "VDD.dc" .null (.arr [.str "VDD.*"]) =
      .ok (some "denied by deny_modify pattern 'VDD.*'") := rfl
  rw [hdenied] at hallowed
  cases hallowed

end Accepted

section Server

variable {env : Env} {params : Obj} {t : Tunnel}

/-- A transaction is stored only if the patterns in force allow what it changes: those of the
request, if it brings any, and otherwise the server's own. -/
theorem stored_by_patterns_in_force (env : Env) (params : Obj) (t : Tunnel) :
    ((mTransactionCreate env params).exec t).2.transactions.records = t.transactions.records ∨
    ∃ i u, ((mTransactionCreate env params).exec t).2.transactions.records =
        t.transactions.records.insert i u ∧
      ((Obj.get params "permissions").truthy = true → ∀ target ∈ namedTargets env (checkedChanges u),
        Allows env (Obj.get params "permissions") target) ∧
      ((Obj.get params "permissions").truthy = false → ∀ target ∈ namedTargets env (checkedChanges u),
        Allows env (pyOr t.permissions (.obj [])) target) := by
  rcases mTransactionCreate_cases env params t with ⟨hsame, -⟩ | ⟨i, u, hstores, hrecords, -⟩
  · exact .inl hsame
  · right
    refine ⟨i, u, hrecords, ?_, ?_⟩
    · intro hown target hnamed
      have hinforce : effectivePermissions params t.permissions = Obj.get params "permissions" := by
        rw [effectivePermissions, show pyOr (Obj.get params "permissions") t.permissions =
          Obj.get params "permissions" from if_pos hown, pyOr, if_pos hown]
      rw [← hinforce]
      exact storesTransaction_allows hstores hnamed
    · intro hnone target hnamed
      have hinforce : effectivePermissions params t.permissions = pyOr t.permissions (.obj []) := by
        rw [effectivePermissions, show pyOr (Obj.get params "permissions") t.permissions =
          t.permissions from if_neg (by simp [hnone])]
      rw [← hinforce]
      exact storesTransaction_allows hstores hnamed

/-- A server that denies changes of supplies. -/
def sampleGuarded : Tunnel :=
  { sampleStart.tunnel with permissions := .obj [("deny_modify", .arr [.str "VDD.*"])] }

/-- A request that sets a supply and brings patterns of its own. -/
def sampleWidening : Obj :=
  [("transaction", .obj [("transaction_id", .str "t_1"), ("after", .arr [sampleValue "VDD" "dc"])]),
    ("permissions", .obj [("allow_modify", .arr [.str "*"])])]

/-- The patterns of a request take the place of the server's. -/
theorem server_patterns_replaced : ∃ i u,
    ((mTransactionCreate .sample sampleWidening).exec sampleGuarded).2.transactions.records =
      sampleGuarded.transactions.records.insert i u ∧
    ∃ target ∈ namedTargets .sample (checkedChanges u), ¬ Allows .sample sampleGuarded.permissions target := by
  refine ⟨.str "t_1", _, rfl, "VDD.dc", List.mem_singleton.mpr rfl, ?_⟩
  rintro ⟨allow, deny, hallow, hdeny, hallowed⟩
  obtain rfl : Json.null = allow := Except.ok.inj hallow
  obtain rfl : Json.arr [.str "VDD.*"] = deny := Except.ok.inj hdeny
  have hdenied : isAllowed .sample "VDD.dc" .null (.arr [.str "VDD.*"]) =
      .ok (some "denied by deny_modify pattern 'VDD.*'") := rfl
  rw [hdenied] at hallowed
  cases hallowed

end Server

end VirtuosoFlow.Tunnel
