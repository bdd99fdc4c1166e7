import VirtuosoFlow.Plugin.FailedApply

/-!
# What the plugin and the tunnel think of an apply

The plugin edits first, has the tunnel record the edit, and undoes the edit unless it is told
that the record was made. It is not told if the answer is lost, if it comes too late, or if the
tunnel raises after it stored the record.
-/

namespace VirtuosoFlow.Plugin

open Base Tunnel

/-- The requests that a call left on their way arrive. -/
def arrived (w w' : World) : World :=
  { (w'.inFlight.drop w.inFlight.length).foldl (fun w r => w.serve r.1 r.2.1 r.2.2) w' with
    inFlight := w.inFlight }

/-- The tunnel holds a transaction in status applied that it did not hold before. -/
def RecordedSince (w w' : World) : Prop :=
  ∃ k u, w.tunnel.transactions.records.get? k = none ∧
    w'.tunnel.transactions.records.get? k = some u ∧ Obj.get u "status" = .str "applied"

/-- A view holds the values after of a proposal; of two changes of a parameter the later one counts. -/
def HoldsAfter (proposal : Value) (v : ViewName) (w : World) : Prop :=
  ∀ ch ∈ changesOf proposal, w.param v (target ch) =
    lastWrite (writesOf "after" (changesOf proposal)) (target ch)

/-- The plugin and the tunnel agree on whether an apply happened, when it has returned and when
every request it left on its way has arrived. -/
def ApplyAgreed (proposal : Value) (v : ViewName) (w w' : World) : Prop :=
  (RecordedSince w w' ↔ HoldsAfter proposal v w') ∧
    (RecordedSince w (arrived w w') ↔ HoldsAfter proposal v (arrived w w'))

/-- The parameters of `transaction.create`. -/
def createParams (s : Session) (txn : Obj) : Obj :=
  [("session_id", .str (s.sessionId.getD "")), ("actor", .str (s.actor.getD "user")),
    ("transaction", .obj txn)]

/-- The tunnel stores a transaction that is sent, unless the request is lost. -/
def Recorded (s : Session) (txn : Obj) (t : Tunnel.Tunnel) : Prop :=
  s.paramsWritable = true ∧ sendable (.obj (createParams s txn)) = true ∧
    s.exchange .transactionCreate ≠ .requestLost ∧
    ∃ i u, StoresTransaction s.env (createParams s txn) t i u

/-- The plugin is told so. -/
def Confirmed (s : Session) (txn : Obj) (t : Tunnel.Tunnel) : Prop :=
  s.paramsWritable = true ∧ sendable (.obj (createParams s txn)) = true ∧
    s.exchange .transactionCreate = .answered ∧
    ∃ i u, StoresTransaction s.env (createParams s txn) t i u ∧ CreateReturns s.env t u

/-- The values before of a proposal are its values after. -/
def SameValues (proposal : Value) : Prop :=
  ∀ ch ∈ changesOf proposal, lastWrite (writesOf "before" (changesOf proposal)) (target ch) =
    lastWrite (writesOf "after" (changesOf proposal)) (target ch)

/-- All parameters that a proposal names are there. -/
def AllThere (proposal : Value) (cv : CellView) : Prop :=
  ∀ ch ∈ changesOf proposal, (cv.param? (target ch)).isSome = true

/-- When the plugin and the tunnel agree on an apply. -/
def Concordant (s : Session) (proposal : Value) (v : ViewName) (w : World) : Prop :=
  match openFor proposal w.db with
  | none => ¬ HoldsAfter proposal v w
  | some (v, cv, db) => AllThere proposal cv →
      Confirmed s (sentApply s proposal v cv db) w.tunnel ∨
      ¬ Recorded s (sentApply s proposal v cv db) w.tunnel ∧ ¬ SameValues proposal ∨
      Recorded s (sentApply s proposal v cv db) w.tunnel ∧
        s.exchange .transactionCreate ≠ .late ∧ SameValues proposal

section Exchange

variable {s : Session} {method : Method} {params txn : Obj} {w w' w'' : World} {pid proposal : Value}
  {v : ViewName}

/-- A call leaves its own request on its way, if any. -/
theorem inFlight_vfpRpcExec : (vfpRpcExec s method params w).2.inFlight =
    w.inFlight ++ if s.exchange method = .late then [(s.env, method, params)] else [] := by
  unfold vfpRpcExec
  split <;> rename_i h <;> simp [h, World.serve]

/-- The request that records a transaction is one with a file. -/
theorem sendTransaction_eq : sendTransaction s txn w =
    vfpRpcFile s .transactionCreate (createParams s txn) w := rfl

/-- Nothing the tunnel looks at for a new transaction differs. -/
def SameTunnel (w w' : World) : Prop := createView w'.tunnel = createView w.tunnel

/-- A world has its own tunnel. -/
theorem SameTunnel.refl (w : World) : SameTunnel w w := rfl

/-- Editing the design leaves the tunnel. -/
theorem SameTunnel.edited {db : Database} : SameTunnel w { w with db := db } := rfl

/-- One step after the other leaves the tunnel if both do. -/
theorem SameTunnel.trans (h : SameTunnel w w') (h' : SameTunnel w' w'') : SameTunnel w w'' := Eq.trans h' h

/-- The same tunnel has the same transactions. -/
theorem SameTunnel.records (h : SameTunnel w w') :
    w'.tunnel.transactions.records = w.tunnel.transactions.records :=
  congrArg (fun view : Store × Store × Json => view.1.records) h

/-- Marking a proposal failed does not touch it, in time or late. -/
theorem sameTunnel_markFailed (env : Tunnel.Env) (params : Obj) (w : World) :
    SameTunnel w (w.serve env .proposalMarkFailed params) :=
  mProposalMarkFailed_fixes env params w.tunnel

/-- The request that marks a proposal as failed leaves the transactions. -/
theorem sameTunnel_markProposalFailed : SameTunnel w (markProposalFailed s pid w) := by
  unfold markProposalFailed vfpRpcParam vfpRpcExec
  split
  · exact sameTunnel_markFailed ..
  · exact .refl w
  · exact sameTunnel_markFailed ..
  · exact .refl w

/-- No new transaction where the stored ones are the same. -/
theorem not_recordedSince (h : w'.tunnel.transactions.records = w.tunnel.transactions.records) :
    ¬ RecordedSince w w' := by
  rintro ⟨k, u, hnone, hsome, _⟩
  rw [h, hnone] at hsome
  cases hsome

/-- The design does not change when requests arrive. -/
theorem db_arrived (w w' : World) : (arrived w w').db = w'.db := by
  have hfold : ∀ (l : List (Tunnel.Env × Method × Obj)) (w : World),
      (l.foldl (fun w r => w.serve r.1 r.2.1 r.2.2) w).db = w.db := by
    intro l
    induction l with
    | nil => intro w; rfl
    | cons r l ih => intro w; exact ih _
  exact hfold _ w'

/-- Whether a view holds the new values depends on its contents alone. -/
theorem holdsAfter_congr (h : w'.db.contents v = w''.db.contents v) :
    HoldsAfter proposal v w' ↔ HoldsAfter proposal v w'' := by
  unfold HoldsAfter World.param
  rw [h]

/-- Whether an apply was recorded depends on the transactions alone. -/
theorem recordedSince_congr {w₀ : World} (h : w''.tunnel.transactions.records = w'.tunnel.transactions.records) :
    RecordedSince w₀ w'' ↔ RecordedSince w₀ w' := by
  unfold RecordedSince
  rw [h]

/-- Requests that mark a proposal failed, served one after the other. -/
theorem sameTunnel_foldl {l : List (Tunnel.Env × Method × Obj)} (h : ∀ r ∈ l, r.2.1 = .proposalMarkFailed)
    (w : World) : SameTunnel w (l.foldl (fun w r => w.serve r.1 r.2.1 r.2.2) w) := by
  induction l generalizing w with
  | nil => exact .refl w
  | cons r l ih =>
    obtain ⟨env, method, params⟩ := r
    obtain rfl : method = .proposalMarkFailed := h _ List.mem_cons_self
    exact (sameTunnel_markFailed env params w).trans (ih (fun r hr => h r (List.mem_cons_of_mem _ hr)) _)

/-- The request that marks a proposal failed is the only one such a call leaves on its way. -/
theorem inFlight_markProposalFailed (s : Session) (pid : Value) (w : World) :
    ∃ l, (∀ r ∈ l, r.2.1 = Method.proposalMarkFailed) ∧
    (markProposalFailed s pid w).inFlight = w.inFlight ++ l := by
  refine ⟨_, ?_, inFlight_vfpRpcExec⟩
  intro r hr
  split at hr
  · rw [List.mem_singleton.mp hr]
  · cases hr

end Exchange

section Create

variable {s : Session} {txn : Obj} {w w₁ : World}

/-- A request that is served stores the transaction, as applied, if the tunnel accepts it. -/
theorem recordedSince_create (hsent : Sendable txn) (happlied : txn.lookup "status" = some (.str "applied")) :
    RecordedSince w (w.serve s.env .transactionCreate (createParams s txn)) ↔
      ∃ i u, StoresTransaction s.env (createParams s txn) w.tunnel i u := by
  constructor
  · intro hrecorded
    by_contra hnone
    refine not_recordedSince ?_ hrecorded
    exact mTransactionCreate_stores_none fun i u hstores => hnone ⟨i, u, hstores⟩
  · rintro ⟨i, u, hstores⟩
    have hrecords := (mTransactionCreate_stores hstores).1
    obtain ⟨hstored, _⟩ := storedFor_of_stores hsent rfl hstores
    obtain ⟨_, _, _, _, _, _, _, _, _, hfree⟩ := hstores
    refine ⟨i, u, hfree, ?_, ?_⟩
    · show ((mTransactionCreate s.env (createParams s txn)).exec w.tunnel).2.transactions.records.get? i = _
      rw [hrecords, Dict.get?_insert_self]
    · rw [Obj.get, Obj.getD, hstored.kept "status" _ (by decide) happlied]
      rfl

/-- A transaction that is sent: refused before it leaves, lost, served, or still on its way. -/
theorem sendTransaction_cases (s : Session) (txn : Obj) (w : World) :
    (¬ (s.paramsWritable = true ∧ sendable (.obj (createParams s txn)) = true ∧
        s.exchange .transactionCreate ≠ .requestLost) ∧
      (sendTransaction s txn w).1.ok = false ∧ (sendTransaction s txn w).2 = w) ∨
    (s.paramsWritable = true ∧ sendable (.obj (createParams s txn)) = true ∧
      (s.exchange .transactionCreate).Served ∧
      ((sendTransaction s txn w).1.ok = true ↔ s.exchange .transactionCreate = .answered ∧
        ((mTransactionCreate s.env (createParams s txn)).exec w.tunnel).1.isOk = true) ∧
      (sendTransaction s txn w).2 = w.serve s.env .transactionCreate (createParams s txn)) ∨
    (s.paramsWritable = true ∧ sendable (.obj (createParams s txn)) = true ∧
      s.exchange .transactionCreate = .late ∧ (sendTransaction s txn w).1.ok = false ∧
      (sendTransaction s txn w).2 =
        { w with inFlight := w.inFlight ++ [(s.env, .transactionCreate, createParams s txn)] }) := by
  rw [sendTransaction_eq, vfpRpcFile]
  by_cases hwritable : s.paramsWritable = true
  · rw [if_pos hwritable]
    by_cases hsendable : sendable (.obj (createParams s txn)) = true
    · rw [if_pos hsendable, vfpRpcExec]
      cases hexchange : s.exchange .transactionCreate with
      | answered =>
        refine .inr (.inl ⟨hwritable, hsendable, .inl rfl, ?_, rfl⟩)
        show (Reply.ofOutcome s.env ((mTransactionCreate s.env (createParams s txn)).exec w.tunnel).1).ok =
          true ↔ _
        cases ((mTransactionCreate s.env (createParams s txn)).exec w.tunnel).1 with
        | ok r => exact ⟨fun _ => ⟨rfl, rfl⟩, fun _ => rfl⟩
        | error e =>
          constructor
          · intro hok
            cases e <;> cases hok
          · rintro ⟨_, hok⟩
            cases hok
      | requestLost => exact .inl ⟨fun h => h.2.2 rfl, rfl, rfl⟩
      | replyLost =>
        refine .inr (.inl ⟨hwritable, hsendable, .inr rfl, ?_, rfl⟩)
        constructor
        · intro hok
          cases hok
        · rintro ⟨hanswered, _⟩
          cases hanswered
      | late => exact .inr (.inr ⟨hwritable, hsendable, rfl, rfl, rfl⟩)
    · rw [if_neg hsendable]
      exact .inl ⟨fun h => hsendable h.2.1, rfl, rfl⟩
  · rw [if_neg hwritable]
    exact .inl ⟨fun h => hwritable h.1, rfl, rfl⟩

/-- A transaction is confirmed exactly if the tunnel answers in time. -/
theorem sendTransaction_confirmed (htunnel : w₁.tunnel = w.tunnel) :
    (sendTransaction s txn w₁).1.ok = true ↔ Confirmed s txn w.tunnel := by
  rcases sendTransaction_cases s txn w₁ with ⟨hnot, hok, _⟩ | ⟨hwritable, hsendable, _, hok, _⟩ |
    ⟨_, _, hlate, hok, _⟩
  · rw [hok]
    constructor
    · intro h
      cases h
    · rintro ⟨hwritable, hsendable, hanswered, _⟩
      exact absurd ⟨hwritable, hsendable, by rw [hanswered]; decide⟩ hnot
  · rw [hok, htunnel, isOk_mTransactionCreate]
    constructor
    · rintro ⟨hanswered, hreturns⟩
      exact ⟨hwritable, hsendable, hanswered, hreturns⟩
    · rintro ⟨_, _, hanswered, hreturns⟩
      exact ⟨hanswered, hreturns⟩
  · rw [hok]
    constructor
    · intro h
      cases h
    · rintro ⟨_, _, hanswered, _⟩
      rw [hlate] at hanswered
      cases hanswered

/-- A confirmed transaction is recorded, and no request is left. -/
theorem recordedSince_confirmed (w₁ : World) (hsent : Sendable txn)
    (happlied : txn.lookup "status" = some (.str "applied"))
    (htunnel : w₁.tunnel = w.tunnel) (hflight : w₁.inFlight = w.inFlight)
    (hconfirmed : Confirmed s txn w.tunnel) :
    RecordedSince w (sendTransaction s txn w₁).2 ∧
      RecordedSince w (arrived w (sendTransaction s txn w₁).2) := by
  obtain ⟨_, hok, _⟩ | ⟨_, _, _, _, hworld⟩ | ⟨_, _, _, hok, _⟩ := sendTransaction_cases s txn w₁
  · rw [(sendTransaction_confirmed htunnel).mpr hconfirmed] at hok
    cases hok
  · obtain ⟨_, _, _, i, u, hstores, _⟩ := hconfirmed
    have hrecorded : RecordedSince w (sendTransaction s txn w₁).2 := by
      rw [hworld]
      refine (recordedSince_congr ?_).mpr ((recordedSince_create hsent happlied).mpr ⟨i, u, hstores⟩)
      rw [World.serve, World.serve, htunnel]
    refine ⟨hrecorded, (recordedSince_congr ?_).mpr hrecorded⟩
    have hnone : (sendTransaction s txn w₁).2.inFlight.drop w.inFlight.length = [] := by
      rw [hworld, World.serve, hflight, List.drop_length]
    rw [arrived, hnone]
    rfl
  · rw [(sendTransaction_confirmed htunnel).mpr hconfirmed] at hok
    cases hok

/-- Nothing but marks of the proposal arrives: the tunnel's transactions stay as they are. -/
theorem sameTunnel_arrived {w' : World} {l : List (Tunnel.Env × Method × Obj)}
    (hl : ∀ r ∈ l, r.2.1 = .proposalMarkFailed) (hleft : w'.inFlight = w.inFlight ++ l) :
    SameTunnel w' (arrived w w') := by
  have hdrop : w'.inFlight.drop w.inFlight.length = l := by rw [hleft, List.drop_left]
  show SameTunnel w' ((w'.inFlight.drop w.inFlight.length).foldl _ w')
  rw [hdrop]
  exact sameTunnel_foldl hl w'

/-- The request for a transaction arrives first, and then marks of the proposal. -/
theorem sameTunnel_arrived_late {w' : World} {l : List (Tunnel.Env × Method × Obj)}
    (hl : ∀ r ∈ l, r.2.1 = .proposalMarkFailed)
    (hleft : w'.inFlight = w.inFlight ++ [(s.env, .transactionCreate, createParams s txn)] ++ l) :
    SameTunnel (w'.serve s.env .transactionCreate (createParams s txn)) (arrived w w') := by
  have hdrop : w'.inFlight.drop w.inFlight.length = (s.env, .transactionCreate, createParams s txn) :: l := by
    rw [hleft, List.append_assoc, List.drop_left, List.singleton_append]
  show SameTunnel _ ((w'.inFlight.drop w.inFlight.length).foldl _ w')
  rw [hdrop]
  exact sameTunnel_foldl hl _

/-- A transaction that is not confirmed may be recorded all the same, at once or when the request
arrives. -/
theorem recordedSince_unconfirmed (pid : Value) (w₁ : World) (db : Database) (hsent : Sendable txn)
    (happlied : txn.lookup "status" = some (.str "applied")) (htunnel : w₁.tunnel = w.tunnel)
    (hflight : w₁.inFlight = w.inFlight) :
    let w' := markProposalFailed s pid { (sendTransaction s txn w₁).2 with db := db }
    (RecordedSince w w' ↔ Recorded s txn w.tunnel ∧ s.exchange .transactionCreate ≠ .late) ∧
      (RecordedSince w (arrived w w') ↔ Recorded s txn w.tunnel) := by
  intro w'
  have hsame : SameTunnel { (sendTransaction s txn w₁).2 with db := db } w' := sameTunnel_markProposalFailed
  obtain ⟨l, hl, hleft⟩ : ∃ l, (∀ r ∈ l, r.2.1 = Method.proposalMarkFailed) ∧
      w'.inFlight = (sendTransaction s txn w₁).2.inFlight ++ l := inFlight_markProposalFailed ..
  generalize w' = w' at *
  rcases sendTransaction_cases s txn w₁ with ⟨hnot, _, hworld⟩ | ⟨hwritable, hsendable, hserved, _, hworld⟩ |
    ⟨hwritable, hsendable, hlate, _, hworld⟩
  · rw [hworld] at hsame hleft
    have hrecords : w'.tunnel.transactions.records = w.tunnel.transactions.records := by
      rw [hsame.records]
      exact congrArg (fun t => t.transactions.records) htunnel
    have hnotRecorded : ¬ Recorded s txn w.tunnel := fun h => hnot ⟨h.1, h.2.1, h.2.2.1⟩
    have harrived : SameTunnel w' (arrived w w') := sameTunnel_arrived hl (hleft.trans (by rw [hflight]))
    constructor
    · exact iff_of_false (not_recordedSince hrecords) fun h => hnotRecorded h.1
    · exact iff_of_false (not_recordedSince (harrived.records.trans hrecords)) hnotRecorded
  · rw [hworld] at hsame hleft
    have hrecords : w'.tunnel.transactions.records =
        (w.serve s.env .transactionCreate (createParams s txn)).tunnel.transactions.records := by
      rw [hsame.records]
      show (w₁.serve s.env .transactionCreate (createParams s txn)).tunnel.transactions.records = _
      rw [World.serve, World.serve, htunnel]
    have hrecorded : RecordedSince w w' ↔ Recorded s txn w.tunnel := by
      rw [recordedSince_congr hrecords, recordedSince_create hsent happlied]
      constructor
      · intro hstores
        refine ⟨hwritable, hsendable, ?_, hstores⟩
        rcases hserved with h | h <;> rw [h] <;> decide
      · exact fun h => h.2.2.2
    have hnotLate : s.exchange .transactionCreate ≠ .late := by
      rcases hserved with h | h <;> rw [h] <;> decide
    have harrived : SameTunnel w' (arrived w w') :=
      sameTunnel_arrived hl (hleft.trans (by rw [← hflight]; rfl))
    constructor
    · rw [hrecorded]
      exact ⟨fun h => ⟨h, hnotLate⟩, And.left⟩
    · rw [recordedSince_congr harrived.records, hrecorded]
  · rw [hworld] at hsame hleft
    have hview : createView w'.tunnel = createView w.tunnel := by
      rw [← htunnel]
      exact hsame
    have hrecords : w'.tunnel.transactions.records = w.tunnel.transactions.records :=
      SameTunnel.records hview
    have harrived := sameTunnel_arrived_late hl (hleft.trans (by rw [← hflight]))
    constructor
    · exact iff_of_false (not_recordedSince hrecords) fun h => h.2 hlate
    · rw [recordedSince_congr harrived.records]
      have hstart : RecordedSince w (w'.serve s.env .transactionCreate (createParams s txn)) ↔
          RecordedSince w' (w'.serve s.env .transactionCreate (createParams s txn)) := by
        unfold RecordedSince
        rw [hrecords]
      rw [hstart, recordedSince_create hsent happlied]
      simp only [storesTransaction_congr hview]
      constructor
      · intro hstores
        exact ⟨hwritable, hsendable, by rw [hlate]; decide, hstores⟩
      · exact fun h => h.2.2.2

end Create

section Agreement

variable {s : Session} {proposal : Value} {w : World} {v : ViewName} {cv : CellView} {db : Database}
  {lib cell : String}

/-- A value that a list of changes writes. -/
theorem exists_lastWrite (key : String) {ch : Value} (hch : ch ∈ changesOf proposal) :
    ∃ x, lastWrite (writesOf key (changesOf proposal)) (target ch) = some x := by
  apply Option.isSome_iff_exists.mp
  rw [isSome_lastWrite, keys_writesOf]
  exact List.mem_map.mpr ⟨ch, hch, rfl⟩

/-- What the view holds at the end of an apply, if it has it. -/
theorem holdsAfter_of_contents {w' : World} (hcontents : w'.db.contents v = some cv) :
    HoldsAfter proposal v w' ↔ ∀ ch ∈ changesOf proposal, cv.param? (target ch) =
      lastWrite (writesOf "after" (changesOf proposal)) (target ch) := by
  unfold HoldsAfter World.param
  rw [hcontents]
  rfl

/-- After the values after were set, the view holds them. -/
theorem holdsAfter_set {w' : World} (hall : AllThere proposal cv)
    (hcontents : w'.db.contents v = some (setParams "after" (changesOf proposal) cv).2) :
    HoldsAfter proposal v w' := by
  rw [holdsAfter_of_contents hcontents]
  intro ch hch
  obtain ⟨x, hx⟩ := Option.isSome_iff_exists.mp (hall ch hch)
  obtain ⟨y, hy⟩ := exists_lastWrite "after" hch
  rw [param?_setParams, hx, hy]
  rfl

/-- After they were undone, it holds them if they are the values before. -/
theorem holdsAfter_undone {w' : World} (hall : AllThere proposal cv)
    (hcontents : w'.db.contents v = some
      (setParams "before" (changesOf proposal) (setParams "after" (changesOf proposal) cv).2).2) :
    HoldsAfter proposal v w' ↔ SameValues proposal := by
  rw [holdsAfter_of_contents hcontents]
  have hstep : ∀ ch ∈ changesOf proposal,
      (setParams "before" (changesOf proposal) (setParams "after" (changesOf proposal) cv).2).2.param?
        (target ch) = lastWrite (writesOf "before" (changesOf proposal)) (target ch) := by
    intro ch hch
    obtain ⟨x, hx⟩ := Option.isSome_iff_exists.mp (hall ch hch)
    obtain ⟨y, hy⟩ := exists_lastWrite "before" hch
    rw [param?_setParams, param?_setParams, hx, hy]
    rfl
  constructor
  · intro hholds ch hch
    rw [← hstep ch hch, hholds ch hch]
  · intro hsame ch hch
    rw [hstep ch hch, hsame ch hch]

/-- A parameter that is missing holds nothing. -/
theorem not_holdsAfter_of_missing {w' : World} {ch : Value} (hch : ch ∈ changesOf proposal)
    (hmissing : cv.param? (target ch) = none)
    (hcontents : w'.db.contents v = some
      (setParams "before" (changesOf proposal) (setParams "after" (changesOf proposal) cv).2).2) :
    ¬ HoldsAfter proposal v w' := by
  rw [holdsAfter_of_contents hcontents]
  intro hholds
  obtain ⟨x, hx⟩ := exists_lastWrite "after" hch
  have hnone := hholds ch hch
  rw [param?_setParams, param?_setParams, hmissing, hx] at hnone
  cases hnone

/-- Agreement of an apply that left nothing but marks of the proposal on its way. -/
theorem applyAgreed_of_same {w' : World} {l : List (Tunnel.Env × Method × Obj)} (hsame : SameTunnel w w')
    (hl : ∀ r ∈ l, r.2.1 = .proposalMarkFailed) (hleft : w'.inFlight = w.inFlight ++ l) :
    ApplyAgreed proposal v w w' ↔ ¬ HoldsAfter proposal v w' := by
  have harrived : SameTunnel w' (arrived w w') := sameTunnel_arrived hl hleft
  have hholds : HoldsAfter proposal v (arrived w w') ↔ HoldsAfter proposal v w' :=
    holdsAfter_congr (by rw [db_arrived])
  unfold ApplyAgreed
  rw [hholds, iff_false_left (not_recordedSince hsame.records),
    iff_false_left (not_recordedSince (hsame.trans harrived).records), and_self]

/-- The schematic cannot be opened. -/
theorem applyAgreed_unopened (hopen : openFor proposal w.db = none) :
    ApplyAgreed proposal v w (vfpApplyTransaction s proposal w).2 ↔ ¬ HoldsAfter proposal v w := by
  have heq : vfpApplyTransaction s proposal w =
      (.nil, markProposalFailed s (vfpAlistGet proposal "proposal_id") w) := by
    unfold vfpApplyTransaction
    dsimp only
    rw [show openSchematic _ _ w.db = none from hopen]
  obtain ⟨l, hl, hleft⟩ := inFlight_markProposalFailed s (vfpAlistGet proposal "proposal_id") w
  rw [heq, applyAgreed_of_same sameTunnel_markProposalFailed hl hleft]
  exact not_congr (holdsAfter_congr (by rw [db_markProposalFailed]))

/-- Not every parameter could be set. -/
theorem applyAgreed_incomplete (hopen : openFor proposal w.db = some (v, cv, db)) (hall : ¬ AllThere proposal cv) :
    ApplyAgreed proposal v w (vfpApplyTransaction s proposal w).2 := by
  obtain ⟨ch, hch, hmissing⟩ : ∃ ch ∈ changesOf proposal, cv.param? (target ch) = none := by
    by_contra hnone
    exact hall fun ch hch => Option.isSome_iff_ne_none.mpr fun hmissing => hnone ⟨ch, hch, hmissing⟩
  have hfailed : (setParams "after" (changesOf proposal) cv).1 = false := by
    rw [← Bool.not_eq_true]
    intro hset
    have hthere := setParams_fst.mp hset ch hch
    rw [hmissing] at hthere
    cases hthere
  have heq := vfpApplyTransaction_incomplete (s := s) hopen hfailed
  have hcontents := contents_failed (s := s) hopen (by rw [heq])
  have hnot := not_holdsAfter_of_missing hch hmissing hcontents
  rw [heq] at hnot ⊢
  obtain ⟨l, hl, hleft⟩ := inFlight_markProposalFailed s (vfpAlistGet proposal "proposal_id")
    { w with db := undoneApply proposal v cv (vfpCheckpointCellView s.cadence "preapply" (vfpCompactTime s) v db).2 }
  exact (applyAgreed_of_same (SameTunnel.edited.trans sameTunnel_markProposalFailed) hl hleft).mpr hnot

/-- The parameters were set and the transaction was sent. -/
theorem applyAgreed_sent (hopen : openFor proposal w.db = some (v, cv, db)) (hall : AllThere proposal cv) :
    ApplyAgreed proposal v w (vfpApplyTransaction s proposal w).2 ↔
      Confirmed s (sentApply s proposal v cv db) w.tunnel ∨
      ¬ Recorded s (sentApply s proposal v cv db) w.tunnel ∧ ¬ SameValues proposal ∨
      Recorded s (sentApply s proposal v cv db) w.tunnel ∧
        s.exchange .transactionCreate ≠ .late ∧ SameValues proposal := by
  have hset : (setParams "after" (changesOf proposal) cv).1 = true := setParams_fst.mpr hall
  have hsent : Sendable (sentApply s proposal v cv db) := sendable_schematicRecord ..
  have happlied : (sentApply s proposal v cv db).lookup "status" = some (.str "applied") := rfl
  have hok : (answeredApply s proposal w v cv db).1.ok = true ↔
      Confirmed s (sentApply s proposal v cv db) w.tunnel := sendTransaction_confirmed rfl
  by_cases hconfirmed : Confirmed s (sentApply s proposal v cv db) w.tunnel
  · rw [vfpApplyTransaction_accepted hopen hset (hok.mpr hconfirmed)]
    refine iff_of_true ?_ (.inl hconfirmed)
    obtain ⟨hrecorded, hrecorded'⟩ := recordedSince_confirmed (w := w) (savedApply s proposal w v cv db)
      hsent happlied rfl rfl hconfirmed
    obtain ⟨o, ho, _⟩ := opened_checkpoint s.cadence (vfpCompactTime s) hopen
    have hcontents : (answeredApply s proposal w v cv db).2.db.contents v =
        some (setParams "after" (changesOf proposal) cv).2 := by
      rw [answeredApply, db_sendTransaction]
      exact (contents_edit_dbSave _ ho).1
    have hholds := holdsAfter_set hall hcontents
    have hholds' : HoldsAfter proposal v (arrived w (answeredApply s proposal w v cv db).2) :=
      (holdsAfter_congr (by rw [db_arrived])).mpr hholds
    exact ⟨iff_of_true hrecorded hholds, iff_of_true hrecorded' hholds'⟩
  · have hrejected : (answeredApply s proposal w v cv db).1.ok = false := by
      rw [← Bool.not_eq_true, hok]
      exact hconfirmed
    have heq := vfpApplyTransaction_rejected hopen hset hrejected
    have hcontents := contents_failed (s := s) hopen (by rw [heq])
    have hholds := holdsAfter_undone hall hcontents
    have hholds' : HoldsAfter proposal v (arrived w (vfpApplyTransaction s proposal w).2) ↔ _ :=
      (holdsAfter_congr (by rw [db_arrived])).trans hholds
    obtain ⟨hrecorded, hrecorded'⟩ := recordedSince_unconfirmed (w := w) (s := s)
      (vfpAlistGet proposal "proposal_id") (savedApply s proposal w v cv db)
      (undoneApply proposal v cv (savedApply s proposal w v cv db).db) hsent happlied rfl rfl
    unfold ApplyAgreed
    rw [hholds, hholds', heq]
    change RecordedSince w (markProposalFailed _ _ { (answeredApply s proposal w v cv db).2 with db := _ }) ↔
      _ at hrecorded
    change RecordedSince w (arrived w
      (markProposalFailed _ _ { (answeredApply s proposal w v cv db).2 with db := _ })) ↔ _ at hrecorded'
    rw [hrecorded, hrecorded']
    by_cases hr : Recorded s (sentApply s proposal v cv db) w.tunnel
    · by_cases hsame : SameValues proposal <;> simp [hconfirmed, hr, hsame]
    · by_cases hsame : SameValues proposal <;> simp [hconfirmed, hr, hsame]

/-- The plugin and the tunnel agree on whether an apply happened exactly if the tunnel confirmed it,
or recorded nothing of an apply that is undone, or recorded in time an apply that changes nothing. -/
theorem apply_agreed_iff
    (hlib : vfpAlistGet (vfpAlistGet proposal "cellview") "lib" = .str lib)
    (hcell : vfpAlistGet (vfpAlistGet proposal "cellview") "cell" = .str cell) :
    ApplyAgreed proposal (schematicOf lib cell) w (vfpApplyTransaction s proposal w).2 ↔
      Concordant s proposal (schematicOf lib cell) w := by
  unfold Concordant
  cases hopen : openFor proposal w.db with
  | none => exact applyAgreed_unopened hopen
  | some out =>
    obtain ⟨v, cv, db⟩ := out
    obtain rfl : v = schematicOf lib cell := by
      obtain ⟨l, c, hl, hc, hv, _⟩ := openSchematic_eq_some hopen
      rw [hlib] at hl
      rw [hcell] at hc
      rw [hv, Value.str.inj hl, Value.str.inj hc]
    by_cases hall : AllThere proposal cv
    · rw [applyAgreed_sent hopen hall]
      exact ⟨fun h _ => h, fun h => h hall⟩
    · exact iff_of_true (applyAgreed_incomplete hopen hall) fun h => absurd h hall

/-- A proposal that doubles the resistor. -/
def sampleDoubled : Value := sampleProposalFor [sampleChange "R1" "r" (some "1K") "2K"]

/-- An apply that sets one parameter twice and is recorded agrees. -/
theorem apply_agreed_iff_sample : ApplyAgreed sampleDoubled (schematicOf "lib" "top") sampleWorld
    (vfpApplyTransaction .sample sampleDoubled sampleWorld).2 := by
  refine (apply_agreed_iff (by rfl) (by rfl)).mpr ?_
  rcases hopen : openFor sampleDoubled sampleWorld.db with _ | ⟨v, cv, db⟩
  · cases hopen
  · unfold Concordant
    rw [hopen]
    intro _
    cases hopen
    exact .inl ((sendTransaction_confirmed rfl).mp (by rfl))

/-- A process that does not hear the answer to `transaction.create`. -/
def Session.deaf : Session :=
  { Session.sample with
    exchange := fun method => if method = .transactionCreate then .replyLost else .answered }

/-- The answer is lost: the plugin undoes the edit, and the tunnel holds it as applied. -/
theorem reply_lost_disagrees : (vfpApplyTransaction .deaf sampleDoubled sampleWorld).1 = .nil ∧
    (vfpApplyTransaction .deaf sampleDoubled sampleWorld).2.param (schematicOf "lib" "top")
      (.str "R1", .str "r") = some (.str "1K") ∧
    ¬ ApplyAgreed sampleDoubled (schematicOf "lib" "top") sampleWorld
      (vfpApplyTransaction .deaf sampleDoubled sampleWorld).2 := by
  refine ⟨by rfl, by rfl, ?_⟩
  rintro ⟨hagreed, _⟩
  have hrecorded : RecordedSince sampleWorld (vfpApplyTransaction .deaf sampleDoubled sampleWorld).2 :=
    ⟨.str "t_0123456789ab", _, by rfl, by rfl, by rfl⟩
  have hholds := hagreed.mp hrecorded (Value.ofJson (sampleChange "R1" "r" (some "1K") "2K"))
    List.mem_cons_self
  have hvalue : (vfpApplyTransaction .deaf sampleDoubled sampleWorld).2.param (schematicOf "lib" "top")
      (target (Value.ofJson (sampleChange "R1" "r" (some "1K") "2K"))) = some (.str "1K") := by rfl
  rw [hvalue] at hholds
  revert hholds
  decide

end Agreement

end VirtuosoFlow.Plugin
