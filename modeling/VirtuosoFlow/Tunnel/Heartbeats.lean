import VirtuosoFlow.Base.Lease
import VirtuosoFlow.Tunnel.SessionIdentity
import VirtuosoFlow.Tunnel.Dispatch

/-!
# Heartbeats

A session is live as long as the daemon hears of it: registering, pinging and every poll of the event stream count.
Idle sessions are dropped by `session.reap` and whenever a client registers.
-/

namespace VirtuosoFlow.Tunnel

open Base JsonText Registry

/-- `_heartbeat(params)`, which `event.list` and `event.wait` begin with. -/
def heartbeat (env : Env) (params : Obj) : Prog PyExc SessionHome Unit := do
  let sid := Obj.get params "session_id"
  if sid.truthy then
    let _ ← Registry.perform env (touchLocked env sid)

/-- The session requests, restarts, and the polls of the event stream. -/
inductive TrafficInput where
  | session (i : SessionInput)
  | poll (env : Env) (params : Obj)

/-- The registry in the traffic of a daemon. -/
def trafficMachine (fmt : FloatFormat) : Machine SessionHome TrafficInput (Except PyExc Json) where
  init := (sessionMachine fmt).init
  step
    | .session i, s => SessionHome.step fmt i s
    | .poll env params, s =>
      let out := (heartbeat env params).exec s
      (out.1.map fun _ => .null, out.2)

/-- The inputs: any payload, an id that names a file and is not in use, and the files that are there. -/
def TrafficInput.Ordinary (fmt : FloatFormat) (daemon : Env) (s : SessionHome) : TrafficInput → Prop
  | .session i => i.Ordinary fmt daemon s
  | .poll env _ => SteadyHost fmt daemon env

/-- The time of a request. -/
def TrafficInput.now : TrafficInput → ℚ
  | .session (.register env _ _) | .session (.ping env _) | .session (.reap env _ _) | .poll env _ => env.now
  | .session (.restart _) => 0

/-- A session was last seen at this time. -/
def SeenAt (sid : String) (s : SessionHome) (t : ℚ) : Prop :=
  ∃ r, s.records.get? (.str sid) = some r ∧ r.lookup "_last_ts" = some (.float (.finite t))

/-- A reap with this limit drops a session that was last seen at this time. -/
def idleSince (env : Env) (limit : PyFloat) (t : ℚ) : Bool :=
  !(limit == .finite 0 || limit.lt (.finite 0)) && (PyFloat.finite t).lt (cutoff env limit)

/-- A request is heard of a session: it registers its client, or names it while it is live. -/
def Beats (sid : String) (e : Entry SessionHome TrafficInput (Except PyExc Json)) : Prop :=
  match e.input with
  | .session (.register _ _ _) => sessionOf e.output = some sid
  | .session (.ping _ params) | .poll _ params =>
    Obj.get params "session_id" = .str sid ∧ (e.before.records.get? (.str sid)).isSome
  | .session _ => False

/-- A request leaves a session that was last seen at this time. -/
def Spares (e : Entry SessionHome TrafficInput (Except PyExc Json)) (t : ℚ) : Prop :=
  match e.input with
  | .session (.register env ttl _) => idleSince env ttl t = false
  | .session (.reap env ttl params) => ∀ limit, reapLimit env ttl params = .ok limit → idleSince env limit t = false
  | _ => True

/-- The lease that a session has. -/
def sessionLease (sid : String) : Lease (Entry SessionHome TrafficInput (Except PyExc Json)) ℚ where
  renews := Beats sid
  time e := e.input.now
  spares := Spares

section Steps

variable {fmt : FloatFormat} {daemon env : Env} {s : SessionHome} {sid : String} {t : ℚ} {limit : PyFloat}

/-- Carrying out file actions leaves the sessions. -/
theorem carryOut_records (env : Env) (actions : List FileAction) (s : SessionHome) :
    ((carryOut env actions).exec s).2.records = s.records := by
  induction actions generalizing s with
  | nil => rfl
  | cons a rest ih =>
    rw [carryOut, Prog.exec_bind_ok (Prog.exec_get s)]
    cases hrun : a.run env "session_id" sessionsDir s.memory s.files with
    | error e =>
      rw [Prog.exec_bind_error (Prog.exec_ofExcept _ _)]
    | ok files =>
      rw [Prog.exec_bind_ok (Prog.exec_ofExcept _ _), Prog.exec_bind_ok (Prog.exec_set _ _)]
      exact ih _

/-- The sessions after an operation are those that its locked part leaves. -/
theorem perform_records (env : Env) (locked : Prog PyExc Memory (List FileAction)) (s : SessionHome) :
    ((perform env locked).exec s).2.records = (locked.exec s.memory).2.records := by
  have hzoom : (locked.zoom SessionHome.memory fun m s => { s with records := m.records }).exec s =
      ((locked.exec s.memory).1, { s with records := (locked.exec s.memory).2.records }) := Prog.exec_zoom ..
  unfold perform
  cases hlocked : (locked.exec s.memory).1 with
  | error e =>
    rw [hlocked] at hzoom
    rw [Prog.exec_bind_error hzoom]
  | ok actions =>
    rw [hlocked] at hzoom
    rw [Prog.exec_bind_ok hzoom]
    have hcarry := carryOut_records env actions { s with records := (locked.exec s.memory).2.records }
    cases hout : (carryOut env actions).exec { s with records := (locked.exec s.memory).2.records } with
    | mk out s' =>
      rw [hout] at hcarry
      cases out with
      | error e =>
        rw [Prog.exec_bind_error hout]
        exact hcarry
      | ok _ =>
        rw [Prog.exec_bind_ok hout]
        exact hcarry

/-- A reap drops those that are idle. -/
theorem isIdle_of_seen {r : Obj} (hr : r.lookup "_last_ts" = some (.float (.finite t))) :
    isIdle env limit r = idleSince env limit t := by
  unfold isIdle idleSince
  rw [Obj.getD, hr]
  cases hcut : cutoff env limit <;> simp [Json.lt?, Json.number?]

/-- A session that is dropped is not seen. -/
theorem seenAt_live : SeenAt sid ⟨live env limit s.records, s.files⟩ t ↔
    SeenAt sid s t ∧ idleSince env limit t = false := by
  unfold SeenAt
  simp only [get?_live, Option.filter_eq_some_iff]
  constructor
  · rintro ⟨r, ⟨hr, hidle⟩, hseen⟩
    rw [isIdle_of_seen hseen] at hidle
    exact ⟨⟨r, hr, hseen⟩, by simpa using hidle⟩
  · rintro ⟨⟨r, hr, hseen⟩, hidle⟩
    exact ⟨r, ⟨hr, by rw [isIdle_of_seen hseen, hidle]; rfl⟩, hseen⟩

/-- An operation that returned did so under the lock. -/
theorem locked_of_perform {locked : Prog PyExc Memory (List FileAction)} {actions : List FileAction}
    {s' : SessionHome} (h : (perform env locked).exec s = (.ok actions, s')) :
    (locked.exec s.memory).1 = .ok actions := by
  obtain ⟨done, s₁, hzoom, hrest⟩ := Prog.exec_bind_eq_ok h
  obtain ⟨-, s₂, -, hreturn⟩ := Prog.exec_bind_eq_ok hrest
  obtain rfl : done = actions := Except.ok.inj (congrArg Prod.fst hreturn)
  rw [Prog.exec_zoom] at hzoom
  exact congrArg Prod.fst hzoom

/-- The session that `register` saves was seen now. -/
theorem register_seen {client : Json} {m : Memory} {k : Key}
    (h : ((register env client).exec m).1 = .ok [.save k]) :
    ∃ r, ((register env client).exec m).2.records.get? k = some r ∧
      r.lookup "_last_ts" = some (.float (.finite env.now)) := by
  unfold register at h ⊢
  dsimp only at h ⊢
  rw [Prog.exec_bind_ok (Prog.exec_get _)] at h ⊢
  cases hsame : sameProcess env (pyOr client (.obj [])) m.records with
  | none =>
    simp only [hsame] at h ⊢
    rw [Prog.exec_bind_ok (Prog.exec_set _ _)] at h ⊢
    obtain rfl : Key.str ("s_" ++ env.uuid) = k := by simpa using h
    exact ⟨newSession env (pyOr client (.obj [])) ("s_" ++ env.uuid), Dict.get?_insert_self .., rfl⟩
  | some e =>
    obtain ⟨key, found⟩ := e
    simp only [hsame] at h ⊢
    rw [Prog.exec_bind_ok (Prog.exec_set _ _)] at h ⊢
    cases hcount : successor env (Obj.getD (seen env (Obj.set found "client" (pyOr client (.obj [])))) "reconnects"
        (.int 0)) with
    | error e =>
      rw [hcount, Prog.exec_bind_error (Prog.exec_ofExcept _ _)] at h
      cases h
    | ok n =>
      rw [hcount, Prog.exec_bind_ok (Prog.exec_ofExcept _ _), Prog.exec_bind_ok (Prog.exec_set _ _)] at h
      rw [Prog.exec_bind_ok (Prog.exec_ofExcept _ _), Prog.exec_bind_ok (Prog.exec_set _ _)]
      obtain rfl : key = k := by simpa using h
      refine ⟨_, Dict.get?_insert_self .., ?_⟩
      rw [Obj.lookup_set_ne _ (by decide), seen, Obj.lookup_set_self]

/-- A register request answers a session that was seen now, and reaps the others. -/
theorem register_beats {ttl : PyFloat} {params : Obj} (h : Coherent fmt daemon s)
    (hok : (SessionInput.register env ttl params).Ordinary fmt daemon s) :
    ∃ sid, sessionOf ((mSessionRegister env ttl params).exec s).1 = some sid ∧
      SeenAt sid ((mSessionRegister env ttl params).exec s).2 env.now ∧
      ∀ k, k ≠ .str sid →
        ((mSessionRegister env ttl params).exec s).2.records.get? k = (live env ttl s.records).get? k := by
  obtain ⟨host, hparams, hid, -⟩ := hok
  obtain ⟨s₁, hreap, hleft, h₁⟩ := perform_reap h host.disk ttl
  have hclient : WellFormed fmt (Obj.getD params "client" (.obj [])) := by
    unfold Obj.getD
    cases hv : params.lookup "client" with
    | none => exact wellFormed_empty
    | some v => exact hparams.lookup hv
  obtain ⟨sid, r, s₂, hregister, hrecords, hsession, -⟩ := perform_register h₁ host hclient hid
  have hstored : s₂.records.get? (.str sid) = some r := by rw [hrecords, Dict.get?_insert_self]
  have hreturned : returned s₂ [.save (.str sid)] = r := by
    simp [returned, FileAction.content, SessionHome.memory, hstored]
  have hexec : (mSessionRegister env ttl params).exec s = (.ok (.obj [("session_id", Obj.get r "session_id"),
      ("registered_at", Obj.get r "created_at"), ("reconnects", Obj.getD r "reconnects" (.int 0))]), s₂) := by
    rw [mSessionRegister, Prog.exec_bind_ok hreap, Prog.exec_bind_ok hregister, Prog.exec_bind_ok (Prog.exec_get _),
      hreturned]
    dsimp only
    rw [getItem_eq ⟨_, hsession.storable.id⟩, getItem_eq hsession.created]
    rfl
  have hsid : Obj.get r "session_id" = .str sid := by rw [Obj.get, Obj.getD, hsession.storable.id]; rfl
  have hseen : SeenAt sid s₂ env.now := by
    have hlocked := register_seen (locked_of_perform hregister)
    have hmemory := perform_records env (register env (Obj.getD params "client" (.obj []))) s₁
    rw [hregister] at hmemory
    rwa [← show s₂.records = _ from hmemory] at hlocked
  rw [hexec, hsid]
  refine ⟨sid, rfl, hseen, fun k hk => ?_⟩
  rw [hrecords, Dict.get?_insert_ne _ hk, hleft]

/-- A heartbeat marks the session it names, if that is live, and no other. -/
theorem touch_beats (env : Env) (v : Json) (s : SessionHome) :
    SeenAt sid ((perform env (touchLocked env v)).exec s).2 t ↔
      ((v = .str sid ∧ (s.records.get? (.str sid)).isSome) ∧ env.now = t) ∨
        (SeenAt sid s t ∧ ¬ (v = .str sid ∧ (s.records.get? (.str sid)).isSome)) := by
  unfold SeenAt
  rw [perform_records]
  have hunmarked (hsame : ((touchLocked env v).exec s.memory).2.records = s.records)
      (hnot : ¬ (v = .str sid ∧ (s.records.get? (.str sid)).isSome)) :
      (∃ r, ((touchLocked env v).exec s.memory).2.records.get? (.str sid) = some r ∧
          r.lookup "_last_ts" = some (.float (.finite t))) ↔
        ((v = .str sid ∧ (s.records.get? (.str sid)).isSome) ∧ env.now = t) ∨
          ((∃ r, s.records.get? (.str sid) = some r ∧ r.lookup "_last_ts" = some (.float (.finite t))) ∧
            ¬ (v = .str sid ∧ (s.records.get? (.str sid)).isSome)) := by
    rw [hsame]
    tauto
  cases hkey : hashKey v with
  | error e =>
    refine hunmarked ?_ ?_
    · rw [touchLocked, hkey, Prog.exec_bind_error (Prog.exec_ofExcept _ _)]
      rfl
    · rintro ⟨rfl, -⟩
      cases hkey
  | ok key =>
    have hkeyed : v.key? = some key := by
      unfold hashKey at hkey
      cases hv : v.key? with
      | none => rw [hv] at hkey; cases hkey
      | some k => rw [hv] at hkey; rw [Except.ok.inj hkey]
    cases hr : s.records.get? key with
    | none =>
      refine hunmarked ?_ ?_
      · rw [touchLocked, hkey, Prog.exec_bind_ok (Prog.exec_ofExcept _ _), Prog.exec_bind_ok (Prog.exec_get _)]
        simp only [SessionHome.memory, hr]
        rfl
      · rintro ⟨rfl, hlive⟩
        obtain rfl : Key.str sid = key := Option.some.inj hkeyed
        rw [hr] at hlive
        cases hlive
    | some r =>
      have hmarked : ((touchLocked env v).exec s.memory).2.records = s.records.insert key (seen env r) := by
        rw [touchLocked, hkey, Prog.exec_bind_ok (Prog.exec_ofExcept _ _), Prog.exec_bind_ok (Prog.exec_get _)]
        simp only [SessionHome.memory, hr]
        rfl
      by_cases hv : v = .str sid
      · obtain rfl : key = .str sid := by
          rw [hv] at hkeyed
          exact (Option.some.inj hkeyed).symm
        have hnow : (seen env r).lookup "_last_ts" = some (.float (.finite env.now)) := by
          rw [seen, Obj.lookup_set_self]
        rw [hmarked, Dict.get?_insert_self, hr]
        simp [hv, hnow]
      · have hne : Key.str sid ≠ key := by
          rintro rfl
          exact hv (key?_eq_str hkeyed)
        rw [hmarked, Dict.get?_insert_ne _ hne]
        simp [hv]

/-- A heartbeat marks the session that its payload names. -/
theorem heartbeat_beats (h : Coherent fmt daemon s) (env : Env) (params : Obj) :
    SeenAt sid ((heartbeat env params).exec s).2 t ↔
      ((Obj.get params "session_id" = .str sid ∧ (s.records.get? (.str sid)).isSome) ∧ env.now = t) ∨
        (SeenAt sid s t ∧ ¬ (Obj.get params "session_id" = .str sid ∧ (s.records.get? (.str sid)).isSome)) := by
  rw [← touch_beats]
  unfold heartbeat
  dsimp only
  split
  · cases htouch : (perform env (touchLocked env (Obj.get params "session_id"))).exec s with
    | mk out s' =>
      cases out with
      | error e => rw [Prog.exec_bind_error htouch]
      | ok _ =>
        rw [Prog.exec_bind_ok htouch]
        rfl
  · rename_i hfalsy
    have hdead : ¬ (Obj.get params "session_id" = .str sid ∧ (s.records.get? (.str sid)).isSome) := by
      rintro ⟨hid, hlive⟩
      obtain ⟨r, hr⟩ := Option.isSome_iff_exists.mp hlive
      obtain ⟨sid', hsid, hsession⟩ := h.sessions _ r hr
      obtain rfl : sid = sid' := Key.str.inj hsid
      rw [hid] at hfalsy
      exact hfalsy (by simp [hsession.storable.nonempty])
    rw [touch_beats]
    simp [hdead]

/-- A heartbeat keeps the sessions coherent. -/
theorem heartbeat_coherent (h : Coherent fmt daemon s) (host : SteadyHost fmt daemon env) (params : Obj) :
    Coherent fmt daemon ((heartbeat env params).exec s).2 := by
  unfold heartbeat
  dsimp only
  split
  · obtain ⟨hcoherent, -⟩ := perform_touch h host (Obj.get params "session_id")
    cases htouch : (perform env (touchLocked env (Obj.get params "session_id"))).exec s with
    | mk out s' =>
      rw [htouch] at hcoherent
      cases out with
      | error e =>
        rw [Prog.exec_bind_error htouch]
        exact hcoherent
      | ok _ =>
        rw [Prog.exec_bind_ok htouch]
        exact hcoherent
  · exact h

/-- A ping is a heartbeat. -/
theorem ping_eq_heartbeat (env : Env) (params : Obj) (s : SessionHome) :
    ((mSessionPing env params).exec s).2 = ((heartbeat env params).exec s).2 := by
  unfold mSessionPing heartbeat
  dsimp only
  split
  · cases htouch : (perform env (touchLocked env (Obj.get params "session_id"))).exec s with
    | mk out s' =>
      cases out with
      | error e => rw [Prog.exec_bind_error htouch, Prog.exec_bind_error htouch]
      | ok _ =>
        rw [Prog.exec_bind_ok htouch, Prog.exec_bind_ok htouch]
        rfl
  · rfl

/-- What one request or restart does to the lease of a session. -/
theorem traffic_step (h : Coherent fmt daemon s) {i : TrafficInput} (hok : i.Ordinary fmt daemon s) :
    Coherent fmt daemon ((trafficMachine fmt).step i s).2 ∧
      ∀ t, SeenAt sid ((trafficMachine fmt).step i s).2 t ↔
        (Beats sid ((trafficMachine fmt).fire s i) ∧ ((trafficMachine fmt).fire s i).input.now = t) ∨
          (SeenAt sid s t ∧ ¬ Beats sid ((trafficMachine fmt).fire s i) ∧
            Spares ((trafficMachine fmt).fire s i) t) := by
  cases i with
  | poll env params =>
    refine ⟨heartbeat_coherent h hok params, fun t => ?_⟩
    rw [show Spares ((trafficMachine fmt).fire s (.poll env params)) t = True from rfl, and_true]
    exact heartbeat_beats h env params
  | session i =>
    obtain ⟨hcoherent, -⟩ := step_coherent h hok
    refine ⟨hcoherent, fun t => ?_⟩
    cases i with
    | register env ttl params =>
      obtain ⟨sid', hanswer, hseen, hothers⟩ := register_beats h hok
      show SeenAt sid ((mSessionRegister env ttl params).exec s).2 t ↔
        (sessionOf ((mSessionRegister env ttl params).exec s).1 = some sid ∧ env.now = t) ∨
          (SeenAt sid s t ∧ ¬ sessionOf ((mSessionRegister env ttl params).exec s).1 = some sid ∧
            idleSince env ttl t = false)
      rw [hanswer]
      by_cases hsid : sid' = sid
      · subst hsid
        obtain ⟨r, hr, hlast⟩ := hseen
        simp [SeenAt, hr, hlast]
      · have hkept := @seenAt_live env s sid t ttl
        have hother := hothers (.str sid) fun h => hsid (Key.str.inj h).symm
        unfold SeenAt at hkept ⊢
        rw [hother, hkept]
        simp [hsid]
    | ping env params =>
      show SeenAt sid ((mSessionPing env params).exec s).2 t ↔ _
      rw [ping_eq_heartbeat,
        show Spares ((trafficMachine fmt).fire s (.session (.ping env params))) t = True from rfl, and_true]
      exact heartbeat_beats h env params
    | reap env ttl params =>
      show SeenAt sid ((mSessionReap env ttl params).exec s).2 t ↔
        (False ∧ env.now = t) ∨ (SeenAt sid s t ∧ ¬ False ∧
          ∀ limit, reapLimit env ttl params = .ok limit → idleSince env limit t = false)
      rw [mSessionReap]
      cases hlimit : reapLimit env ttl params with
      | error e =>
        rw [Prog.exec_bind_error (Prog.exec_ofExcept _ _)]
        simp
      | ok limit =>
        obtain ⟨s', hexec, hleft, -⟩ := perform_reap h (SteadyHost.disk hok) limit
        rw [Prog.exec_bind_ok (Prog.exec_ofExcept _ _), Prog.exec_bind_ok hexec]
        have hkept := @seenAt_live env s sid t limit
        unfold SeenAt at hkept ⊢
        show (∃ r, s'.records.get? _ = _ ∧ _) ↔ _
        rw [hleft, hkept]
        simp
    | restart names =>
      obtain ⟨records, hload, hloaded, -⟩ := coherent_restart h hok
      have hstep : (trafficMachine fmt).step (.session (.restart names)) s =
          (.ok .null, { s with records := records }) := by
        show SessionHome.step fmt (.restart names) s = _
        rw [SessionHome.step, hload]
      have hsame : records.get? (.str sid) = s.records.get? (.str sid) :=
        (hloaded.file sid).symm.trans (h.file sid)
      rw [hstep]
      show (∃ r, records.get? _ = _ ∧ _) ↔ (False ∧ _) ∨ (SeenAt sid s t ∧ ¬ False ∧ True)
      rw [hsame]
      simp [SeenAt]

end Steps

/-- The ids in the answer to a reap. -/
theorem str_mem_removedIds {keys : List Key} {sid : String} :
    .str sid ∈ removedIds (keys.map .unlink) ↔ Key.str sid ∈ keys := by
  unfold removedIds
  rw [List.mem_filterMap]
  constructor
  · rintro ⟨a, ha, hmatch⟩
    obtain ⟨k, hk, rfl⟩ := List.mem_map.mp ha
    cases k with
    | str sid' =>
      obtain rfl : sid' = sid := by simpa using hmatch
      exact hk
    | none | num | nan | infinite => simp at hmatch
  · intro hkey
    exact ⟨.unlink (.str sid), List.mem_map.mpr ⟨_, hkey, rfl⟩, rfl⟩

/-- A session is live exactly as long as the daemon heard of it and no reap since then found that too long ago, and
`_last_ts` tells when that was, across restarts too; `session.reap` answers just the sessions it was last heard of too
long ago. -/
theorem live_iff_beating {fmt : FloatFormat} {daemon : Env}
    {h : List (Entry SessionHome TrafficInput (Except PyExc Json))} {s : SessionHome}
    (hrun : Run (trafficMachine fmt) (TrafficInput.Ordinary fmt daemon) h s) (sid : String) :
    ((s.records.get? (.str sid)).isSome ↔ ∃ t, (sessionLease sid).HeldSince h t) ∧
    (∀ t, SeenAt sid s t ↔ (sessionLease sid).HeldSince h t) ∧
    ∀ env ttl params limit, SteadyHost fmt daemon env → reapLimit env ttl params = .ok limit →
      ∃ removed, ((mSessionReap env ttl params).exec s).1 =
          .ok (.obj [("removed", .arr removed), ("count", .int removed.length)]) ∧
        (.str sid ∈ removed ↔ ∃ t, (sessionLease sid).HeldSince h t ∧ idleSince env limit t = true) := by
  obtain ⟨hcoherent, hseen⟩ := @Lease.heldSince_iff _ _ _ _ _ _ (sessionLease sid) (SeenAt sid)
    (Coherent fmt daemon) _ _ (fun s hs => by
      obtain rfl : s = _ := hs
      exact ⟨coherent_init fmt daemon, fun t => by rintro ⟨r, hr, -⟩; cases hr⟩)
    (fun s i hok h => traffic_step h hok) hrun
  have hlive : ∀ r, s.records.get? (.str sid) = some r → ∃ t, r.lookup "_last_ts" = some (.float (.finite t)) := by
    intro r hr
    obtain ⟨_, _, hsession⟩ := hcoherent.sessions _ r hr
    exact hsession.lastSeen
  refine ⟨?_, hseen, fun env ttl params limit host hlimit => ?_⟩
  · rw [Option.isSome_iff_exists]
    constructor
    · rintro ⟨r, hr⟩
      obtain ⟨t, ht⟩ := hlive r hr
      exact ⟨t, (hseen t).mp ⟨r, hr, ht⟩⟩
    · rintro ⟨t, ht⟩
      obtain ⟨r, hr, -⟩ := (hseen t).mpr ht
      exact ⟨r, hr⟩
  · obtain ⟨s', hexec, -⟩ := perform_reap hcoherent host.disk limit
    refine ⟨removedIds ((dropped env limit s.records).map .unlink), ?_, ?_⟩
    · rw [mSessionReap, hlimit, Prog.exec_bind_ok (Prog.exec_ofExcept _ _), Prog.exec_bind_ok hexec]
      rfl
    · rw [str_mem_removedIds, mem_dropped]
      constructor
      · rintro ⟨r, hr, hidle⟩
        obtain ⟨t, ht⟩ := hlive r hr
        exact ⟨t, (hseen t).mp ⟨r, hr, ht⟩, by rwa [← isIdle_of_seen ht]⟩
      · rintro ⟨t, ht, hidle⟩
        obtain ⟨r, hr, hlast⟩ := (hseen t).mpr ht
        exact ⟨r, hr, by rwa [isIdle_of_seen hlast]⟩

/-- A process registers, and polls the event stream later. -/
def sampleTraffic : List TrafficInput :=
  [.session (sampleRegisters "0123456789ab" 0 600 (.str "3500")),
    .poll (sampleHost "" 1000) [("session_id", .str "s_0123456789ab")]]

/-- A session is registered and heard of again. -/
theorem live_iff_beating_sample :
    (sessionLease "s_0123456789ab").HeldSince
      ((trafficMachine sampleTimes).trace ⟨.empty, fun _ => none⟩ sampleTraffic) 1000 := by
  have hclient : WellFormed sampleTimes (.obj [("client", sampleClient (.str "3500"))]) := by
    refine wellFormed_obj_iff.mpr ⟨by simp, ?_⟩
    simp only [List.forall_mem_cons, List.not_mem_nil, false_imp_iff, implies_true, and_true]
    refine wellFormed_obj_iff.mpr ⟨by simp, ?_⟩
    simp only [List.forall_mem_cons, List.not_mem_nil, false_imp_iff, implies_true, and_true]
    exact ⟨wellFormed_str _, wellFormed_str _⟩
  have hstart : Run (trafficMachine sampleTimes) (TrafficInput.Ordinary sampleTimes (sampleHost "" 0)) []
      ⟨.empty, fun _ => none⟩ := .init rfl
  have hrun := hstart.append_trace sampleTraffic (by
    simp only [sampleTraffic, Machine.trace, List.forall_mem_cons, List.not_mem_nil, false_imp_iff, implies_true,
      and_true]
    exact ⟨⟨steady_sampleHost (.inl rfl) _, hclient, by decide, rfl⟩, steady_sampleHost (.inr rfl) _⟩)
  exact ((live_iff_beating hrun "s_0123456789ab").2.1 1000).mp ⟨_, rfl, rfl⟩

end VirtuosoFlow.Tunnel
