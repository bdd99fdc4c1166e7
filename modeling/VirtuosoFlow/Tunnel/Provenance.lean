import VirtuosoFlow.Tunnel.Requests

/-!
# Where the fingerprint of a session comes from

`transaction.create` and `job.create` snapshot the fingerprint of the session a record comes from. They
look the session up in the registry, but keep a fingerprint that the payload brings along: a record whose
session they do not bind, or do not know, carries what its client wrote.
-/

namespace VirtuosoFlow.Tunnel

open Base

/-- The fingerprint that the registry holds for a session id. -/
def snapshot (registry : Store) (sid : Json) : Option Obj :=
  match ((Registry.sessionFingerprint sid).exec registry).1 with
  | .ok fp => fp
  | .error _ => none

/-- A value is the fingerprint that the registry holds for a session id. -/
def IsSnapshot (registry : Store) (sid fp : Json) : Prop :=
  ∃ held, snapshot registry sid = some held ∧ (fp = .obj held ∨ fp.pyEq (.obj held) = true)

/-- A record carries no fingerprint, or that of the session it names. -/
def Genuine (registry : Store) (r : Obj) : Prop :=
  Obj.get r "session_fingerprint" = .null ∨
    IsSnapshot registry (Obj.get r "session") (Obj.get r "session_fingerprint")

/-- The fingerprint of a payload is replaced by that of a known session, or it has none to replace, or it
brings along just the one that the registry holds for the session the record will name. -/
def Vouched (registry : Store) (bound : Bool) (sid : Json) (data : Obj) : Prop :=
  (bound = true ∧ (snapshot registry sid).isSome = true) ∨ Obj.get data "session_fingerprint" = .null ∨
    IsSnapshot registry (if bound then sid else Obj.get data "session") (Obj.get data "session_fingerprint")

/-- A transaction is bound to the session of its request where it names none itself. -/
def bindsTransaction (params data : Obj) : Bool :=
  (Obj.get params "session_id").truthy && !(Obj.get data "session").truthy

/-- A job is bound to the session of its request in any case. -/
def bindsJob (params : Obj) : Bool := (Obj.get params "session_id").truthy

/-- A store has one record more, under this key. -/
def Added (before after : Store) (k : Key) (r : Obj) : Prop :=
  before.records.get? k = none ∧ after.records.get? k = some r

section Binding

variable {env : Env} {registry : Store} {params data data' r : Obj} {sid : Json} {t t' : Tunnel}

/-- What was added is what was inserted. -/
theorem Added.of_insert {before after : Store} {i k : Key} {u : Obj} (h : Added before after k r)
    (hafter : after.records = before.records.insert i u) : r = u := by
  obtain ⟨hbefore, hr⟩ := h
  rw [hafter, Dict.get?_insert] at hr
  split at hr
  · exact (Option.some.inj hr).symm
  · rw [hbefore] at hr
    cases hr

/-- What a record has from the payload it is made of. -/
structure FromPayload (r data : Obj) : Prop where
  session : Obj.get r "session" = Obj.get data "session"
  fingerprint : Obj.get r "session_fingerprint" = Obj.get data "session_fingerprint"

/-- A record is as genuine as its payload. -/
theorem FromPayload.genuine_iff (h : FromPayload r data) : Genuine registry r ↔ Genuine registry data := by
  rw [Genuine, Genuine, h.session, h.fingerprint]

/-- A transaction is made from its payload. -/
theorem fromPayload_makeTransaction : FromPayload (makeTransaction env data) data := by
  constructor
  · unfold makeTransaction
    dsimp only
    split <;> simp
  · unfold makeTransaction
    dsimp only
    split <;> simp

/-- So is a job. -/
theorem fromPayload_makeJob : FromPayload (makeJob env data) data := by
  constructor
  · unfold makeJob
    dsimp only
    split <;> split <;> simp
  · unfold makeJob
    dsimp only
    split <;> split <;> simp

/-- Binding a session puts its id into the payload, and its fingerprint if the registry holds one. -/
theorem bindSession_eq (h : (bindSession sid data).exec t = (.ok data', t')) :
    data' = match snapshot t.registry sid with
      | some fp => Obj.set (Obj.set data "session" sid) "session_fingerprint" (.obj fp)
      | none => Obj.set data "session" sid := by
  obtain ⟨fp, t₁, hfp, h⟩ := Prog.exec_bind_eq_ok h
  have hsnapshot : snapshot t.registry sid = fp := by
    have hout : ((Registry.sessionFingerprint sid).exec t.registry).1 = .ok fp := congrArg Prod.fst hfp
    rw [snapshot, hout]
  rw [hsnapshot]
  cases fp with
  | none => exact (Except.ok.inj (congrArg Prod.fst h)).symm
  | some fp => exact (Except.ok.inj (congrArg Prod.fst h)).symm

/-- The payload after binding is genuine just when the one before was vouched for. -/
theorem genuine_bindSession_iff (h : (bindSession sid data).exec t = (.ok data', t')) :
    Genuine t.registry data' ↔ Vouched t.registry true sid data := by
  rw [bindSession_eq h]
  cases hheld : snapshot t.registry sid with
  | some held =>
    have hgenuine : IsSnapshot t.registry sid (.obj held) := ⟨held, hheld, .inl rfl⟩
    simp [Genuine, Vouched, hheld, hgenuine]
  | none => simp [Genuine, Vouched, hheld]

/-- Without a session to bind, genuine is what the registry vouches for. -/
theorem genuine_iff_vouched_unbound : Genuine registry data ↔ Vouched registry false sid data := by
  simp [Genuine, Vouched]

end Binding

section Requests

variable {env : Env} {params data data' r : Obj} {k : Key} {t t' : Tunnel}

/-- The client of a session in the registry. -/
def clients (registry : Store) (k : Key) : Option Json :=
  (registry.records.get? k).map fun rec => Obj.get rec "client"

/-- The fingerprint of a session is that of its client. -/
theorem snapshot_congr {registry registry' : Store} (h : ∀ k, clients registry' k = clients registry k)
    (sid : Json) : snapshot registry' sid = snapshot registry sid := by
  have hclient : ∀ k, Obj.get ((registry'.records.get? k).getD []) "client" =
      Obj.get ((registry.records.get? k).getD []) "client" := by
    intro k
    have hk := h k
    unfold clients at hk
    cases hr : registry.records.get? k with
    | none =>
      rw [hr, Option.map_none, Option.map_eq_none_iff] at hk
      rw [hk]
    | some rec =>
      rw [hr, Option.map_some] at hk
      obtain ⟨rec', hr', heq⟩ := Option.map_eq_some_iff.mp hk
      rw [hr', Option.getD_some, Option.getD_some, heq]
  unfold snapshot Registry.sessionFingerprint
  by_cases hsid : sid.truthy = true
  · cases hkey : sid.key? with
    | none => simp [hsid, Registry.get, getRecord, Prog.exec_bind, hashKey, hkey]
    | some k =>
      simp only [hsid, Bool.not_true, Bool.false_eq_true, if_false, Registry.get, getRecord, Prog.exec_bind,
        hashKey, hkey, Prog.exec_ofExcept, Prog.exec_get, Prog.exec_pure, hclient]
      cases Registry.fingerprintOf (pyOr (Obj.get ((registry.records.get? k).getD []) "client") (.obj [])) with
      | ok fp => simp
      | error e => simp
  · simp [hsid]

/-- A session that is seen again keeps its client. -/
theorem clients_touch (env : Env) (sid : Json) (registry : Store) (k : Key) :
    clients ((Registry.touch env sid).exec registry).2 k = clients registry k := by
  unfold Registry.touch
  cases hkey : sid.key? with
  | none => simp [Prog.exec_bind, hashKey, hkey]
  | some key =>
    cases hrec : registry.records.get? key with
    | none => simp [Prog.exec_bind, hashKey, hkey, hrec]
    | some rec =>
      simp only [Prog.exec_bind, hashKey, hkey, Prog.exec_ofExcept, Prog.exec_get, hrec, Prog.exec_set]
      generalize hseen : Obj.set (Obj.set rec "last_seen" env.stamp) "_last_ts" (.float (.finite env.now)) = seen
      have hclient : Obj.get seen "client" = Obj.get rec "client" := by rw [← hseen]; simp
      obtain ⟨writes, hpersist⟩ :=
        exec_persist env "session_id" seen { registry with records := registry.records.insert key seen }
      rw [hpersist]
      by_cases hk : k = key
      · rw [hk, clients, clients, Dict.get?_insert_self, hrec, Option.map_some, Option.map_some, hclient]
      · rw [clients, clients, Dict.get?_insert_ne _ hk]

/-- Hearing of a session does not change what the registry vouches for. -/
theorem vouched_touch (env : Env) (sid sid' : Json) (bound : Bool) (registry : Store) :
    Vouched ((Registry.touch env sid).exec registry).2 bound sid' data ↔ Vouched registry bound sid' data := by
  have hsame := snapshot_congr (clients_touch env sid registry)
  simp only [Vouched, IsSnapshot, hsame]

/-- Nor what is genuine. -/
theorem genuine_touch (env : Env) (sid : Json) (registry : Store) :
    Genuine ((Registry.touch env sid).exec registry).2 data ↔ Genuine registry data := by
  have hsame := snapshot_congr (clients_touch env sid registry)
  simp only [Genuine, IsSnapshot, hsame]

/-- The payload of a transaction after `bindActor`. -/
theorem genuine_bindActor_iff (h : (bindActor params data).exec t = (.ok data', t')) :
    Genuine t.registry data' ↔
      Vouched t.registry (bindsTransaction params data) (Obj.get params "session_id") data := by
  obtain ⟨data₁, t₁, hsession, h⟩ := Prog.exec_bind_eq_ok h
  have hactor : FromPayload data' data₁ := by
    obtain rfl := Except.ok.inj (congrArg Prod.fst h)
    split
    · exact ⟨by simp, by simp⟩
    · exact ⟨rfl, rfl⟩
  rw [hactor.genuine_iff]
  change (if bindsTransaction params data = true then bindSession (Obj.get params "session_id") data
    else pure data).exec t = (.ok data₁, t₁) at hsession
  by_cases hbound : bindsTransaction params data = true
  · rw [if_pos hbound] at hsession
    rw [hbound]
    exact genuine_bindSession_iff hsession
  · rw [if_neg hbound] at hsession
    obtain rfl := Except.ok.inj (congrArg Prod.fst hsession)
    rw [Bool.eq_false_iff.mpr hbound]
    exact genuine_iff_vouched_unbound

/-- The payload of a job after `bindJobSession`. -/
theorem genuine_bindJobSession_iff (h : (bindJobSession env params data).exec t = (.ok data', t')) :
    Genuine t.registry data' ↔ Vouched t.registry (bindsJob params) (Obj.get params "session_id") data := by
  change (if bindsJob params = true then do
      onRegistry (Registry.touch env (Obj.get params "session_id"))
      bindSession (Obj.get params "session_id") data
    else pure data).exec t = (.ok data', t') at h
  by_cases hbound : bindsJob params = true
  · rw [if_pos hbound] at h
    obtain ⟨_, t₁, htouch, h⟩ := Prog.exec_bind_eq_ok h
    have hregistry : t₁.registry = ((Registry.touch env (Obj.get params "session_id")).exec t.registry).2 := by
      obtain rfl := congrArg Prod.snd htouch
      rfl
    have hiff := genuine_bindSession_iff h
    rw [hregistry, genuine_touch, vouched_touch] at hiff
    rw [hbound]
    exact hiff
  · rw [if_neg hbound] at h
    obtain rfl := Except.ok.inj (congrArg Prod.fst h)
    rw [Bool.eq_false_iff.mpr hbound]
    exact genuine_iff_vouched_unbound

/-- The record that a request for a transaction or a job stores carries the fingerprint of the session it
names, or none, just when its payload was vouched for. -/
theorem fingerprint_genuine_iff (env : Env) (params : Obj) (t : Tunnel) :
    (∀ data k r, Obj.get params "transaction" = .obj data →
      Added t.transactions ((mTransactionCreate env params).exec t).2.transactions k r →
        (Genuine t.registry r ↔
          Vouched t.registry (bindsTransaction params data) (Obj.get params "session_id") data)) ∧
    ∀ data k r, Obj.get params "job" = .obj data →
      Added t.jobs ((mJobCreate env params).exec t).2.jobs k r →
        (Genuine t.registry r ↔ Vouched t.registry (bindsJob params) (Obj.get params "session_id") data) := by
  constructor
  · intro data k r hdata hadded
    rcases mTransactionCreate_cases env params t with ⟨hsame, -⟩ | ⟨i, u, hstores, hrecords, -⟩
    · obtain ⟨hnone, hsome⟩ := hadded
      rw [hsame, hnone] at hsome
      cases hsome
    · obtain rfl := hadded.of_insert hrecords
      obtain ⟨data₀, data', t', hdata₀, hbound, rfl, -⟩ := hstores
      obtain rfl : data₀ = data := Json.obj.inj (hdata₀.symm.trans hdata)
      rw [fromPayload_makeTransaction.genuine_iff]
      exact genuine_bindActor_iff hbound
  · intro data k r hdata hadded
    rcases mJobCreate_records env params t with hsame | ⟨i, j, ⟨t', hcandidate, -⟩, hrecords⟩
    · obtain ⟨hnone, hsome⟩ := hadded
      rw [hsame, hnone] at hsome
      cases hsome
    · obtain rfl := hadded.of_insert hrecords
      obtain ⟨data₀, data', hdata₀, hbound, rfl⟩ := hcandidate
      obtain rfl : data₀ = data := Json.obj.inj (hdata₀.symm.trans hdata)
      rw [fromPayload_makeJob.genuine_iff]
      exact genuine_bindJobSession_iff hbound

end Requests

section Examples

/-- A daemon that knows one session. -/
def sampleKnown : Tunnel := { Tunnel.fresh .empty with
  registry := { Store.empty with
    records := Dict.empty.insert (.str "s_1") [("client", .obj [("virtuoso_pid", .str "3500")])] } }

/-- A transaction that comes from it. -/
def sampleFromSession : Obj :=
  [("transaction", .obj [("transaction_id", .str "t_1")]), ("session_id", .str "s_1")]

/-- A transaction of a session that is known. -/
theorem fingerprint_genuine_iff_sample : ∃ r,
    Added sampleKnown.transactions ((mTransactionCreate .sample sampleFromSession).exec sampleKnown).2.transactions
      (.str "t_1") r ∧ Genuine sampleKnown.registry r := by
  have hadded : Added sampleKnown.transactions
      ((mTransactionCreate .sample sampleFromSession).exec sampleKnown).2.transactions (.str "t_1") _ := ⟨rfl, rfl⟩
  exact ⟨_, hadded, ((fingerprint_genuine_iff .sample sampleFromSession sampleKnown).1
    [("transaction_id", .str "t_1")] _ _ rfl hadded).mpr (.inl ⟨rfl, rfl⟩)⟩

/-- A transaction of no session, with a fingerprint of its own. -/
def sampleForgedSession : Obj := [("transaction", .obj [("transaction_id", .str "t_1"),
  ("session_fingerprint", .obj [("virtuoso_pid", .str "1")])])]

/-- It is stored with that fingerprint, though the registry knows no session. -/
theorem fingerprint_forged : ¬ ∀ (env : Env) (params : Obj) (t : Tunnel) (k : Key) (r : Obj),
    Added t.transactions ((mTransactionCreate env params).exec t).2.transactions k r →
      Genuine t.registry r := by
  intro hall
  have hadded : Added (Tunnel.fresh .empty).transactions
      ((mTransactionCreate .sample sampleForgedSession).exec (Tunnel.fresh .empty)).2.transactions (.str "t_1") _ :=
    ⟨rfl, rfl⟩
  rcases hall _ _ _ _ _ hadded with hnull | ⟨held, hheld, -⟩
  · exact nomatch hnull
  · exact nomatch hheld

end Examples

end VirtuosoFlow.Tunnel
