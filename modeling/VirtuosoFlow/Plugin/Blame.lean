import VirtuosoFlow.Plugin.Recorded
import VirtuosoFlow.Plugin.Encoder
import VirtuosoFlow.Tunnel.NewestDone
import Mathlib.Data.List.Pairwise

/-!
# The history of a parameter

`vfpParamHistory` of `vfp_transaction.il` asks the tunnel for all transactions, which come latest first by
`created_ts`, keeps those that set one parameter of one instance, and sorts them again by their timestamps.
Those are whole seconds, and the sort is stable: the changes of one second stay latest first.
-/

namespace VirtuosoFlow.Plugin

open Base Tunnel

/-- `vfpAlistMatch(pv instName paramName)`. -/
def vfpAlistMatch (pv : Value) (instName paramName : String) : Bool :=
  vfpAlistGet pv "instance" == .str instName && vfpAlistGet pv "param" == .str paramName

/-- `vfpToStr(vfpAlistGet(tx "timestamp"))`. -/
def timeText (printer : Printer) (tx : Value) : String := vfpToStr printer (vfpAlistGet tx "timestamp")

/-- `vfpTxnTimeLess(a b)`. -/
def vfpTxnTimeLess (printer : Printer) (a b : Value) : Bool := decide (timeText printer a < timeText printer b)

/-- `sort(l less)`, which is stable: a value goes before another unless that one is less. -/
def sortBy (less : Value → Value → Bool) (l : List Value) : List Value :=
  l.insertionSort fun a b => less b a = false

/-- `setof(pv vfpAlistGet(tx list) vfpAlistMatch(pv instName paramName))`. -/
def matching (tx : Value) (list instName paramName : String) : List Value :=
  (vfpAlistGet tx list).toList.filter fun pv => vfpAlistMatch pv instName paramName

/-- `and(pv vfpAlistGet(pv "value"))` of the first of these, if there is one. -/
def firstValue (pvs : List Value) : Value :=
  match pvs with
  | [] => .nil
  | pv :: _ => if pv.truthy then vfpAlistGet pv "value" else .nil

/-- What the history lists of a transaction. -/
def historyEntry (instName paramName : String) (tx : Value) : Value :=
  Encoder.list [vfpAlistGet tx "transaction_id", vfpAlistGet tx "status", vfpAlistGet tx "timestamp",
    vfpAlistGet tx "proposal_id", firstValue (matching tx "before" instName paramName),
    firstValue (matching tx "after" instName paramName)]

/-- `vfpParamHistory(instName paramName)`. -/
def vfpParamHistory (s : Session) (instName paramName : String) (w : World) : List Value × World :=
  let res := vfpRpcExec s .transactionList [] w
  if res.1.ok then
    let txns := (vfpAlistGet res.1.payload "transactions").toList
    let hits := sortBy (vfpTxnTimeLess s.printer)
      (txns.filter fun tx => !(matching tx "after" instName paramName).isEmpty)
    (hits.map (historyEntry instName paramName), res.2)
  else ([], res.2)

/-- The `after` list of a transaction sets the parameter of the instance. -/
def Sets (instName paramName : String) (r : Obj) : Prop :=
  ∃ changes change, Obj.get r "after" = .arr changes ∧ .obj change ∈ changes ∧
    Obj.get change "instance" = .str instName ∧ Obj.get change "param" = .str paramName

/-- When a transaction was created. -/
def createdTs (r : Obj) : ℚ :=
  match Obj.get r "created_ts" with
  | .float (.finite q) => q
  | _ => 0

/-- The timestamp of a transaction. -/
def timestamp (r : Obj) : String :=
  match Obj.get r "timestamp" with
  | .str s => s
  | _ => ""

/-- A recorded transaction: filed under its id, stamped by the tunnel, its changes objects. -/
structure Dated (k : Key) (r : Obj) : Prop where
  id : (Obj.get r "transaction_id").key? = some k
  named : (Obj.get r "transaction_id").truthy = true
  created : r.lookup "created_ts" = some (.float (.finite (createdTs r)))
  stamped : r.lookup "timestamp" = some (.str (timestamp r))
  unique : UniqueMembers r
  after : ∃ changes : List Obj, Obj.get r "after" = .arr (changes.map .obj) ∧ ∀ c ∈ changes, UniqueMembers c

/-- Recorded transactions with `created_ts` all different, and a clock that was never put back: of two
transactions the later has no earlier timestamp. -/
structure RecordedInTime (st : Store) : Prop where
  dated : ∀ k r, st.records.get? k = some r → Dated k r
  apart : ∀ k r k' r', st.records.get? k = some r → st.records.get? k' = some r' →
    createdTs r = createdTs r' → k = k'
  clock : ∀ k r k' r', st.records.get? k = some r → st.records.get? k' = some r' →
    createdTs r ≤ createdTs r' → timestamp r ≤ timestamp r'

/-- A history names exactly the transactions that set the parameter, in the order of their creation. -/
def Chronological (st : Store) (instName paramName : String) (history : List Value) : Prop :=
  ∃ hits : List Obj, history.map Value.car = hits.map (fun r => Value.ofJson (Obj.get r "transaction_id")) ∧
    (∀ r, r ∈ hits ↔ r ∈ st.records.values ∧ Sets instName paramName r) ∧
    hits.Pairwise fun a b => createdTs a < createdTs b

section Reading

variable {k : Key} {r c : Obj} {v : Json} {instName paramName text : String}

/-- Only a string is read as that string. -/
theorem ofJson_eq_str : Value.ofJson v = .str text ↔ v = .str text := by
  cases v with
  | str s => simp [Value.ofJson]
  | bool b => cases b <;> simp [Value.ofJson]
  | float x =>
    rcases x with q | _ | negative
    · simp [Value.ofJson, Value.ofFloat]
    · simp [Value.ofJson, Value.ofFloat]
    · cases negative <;> simp [Value.ofJson, Value.ofFloat]
  | arr items => cases items <;> simp [Value.ofJson, Value.ofItems]
  | obj members => cases members <;> simp [Value.ofJson, Value.ofMembers]
  | _ => simp [Value.ofJson]

/-- The key of an id, from what the plugin reads of it. -/
def valueKey : Value → Option Key
  | .fix n => some (.num n)
  | .flo q => some (.num q)
  | .str s => some (.str s)
  | .t => some (.num 1)
  | .sym "nan" => some .nan
  | .sym "inf" => some (.infinite false)
  | .sym "-inf" => some (.infinite true)
  | _ => none

/-- The plugin can tell true ids of different keys apart. -/
theorem valueKey_ofJson (htrue : v.truthy = true) (hkey : v.key? = some k) : valueKey (Value.ofJson v) = some k := by
  cases v with
  | null => simp [Json.truthy] at htrue
  | bool b =>
    obtain rfl : b = true := htrue
    exact hkey
  | int n => exact hkey
  | str s => exact hkey
  | float x =>
    rcases x with q | _ | negative
    · exact hkey
    · exact hkey
    · cases negative <;> exact hkey
  | _ => simp [Json.key?] at hkey

/-- A change matches if it names the instance and the parameter. -/
theorem vfpAlistMatch_obj (hunique : UniqueMembers c) :
    vfpAlistMatch (Value.ofJson (.obj c)) instName paramName = true ↔
    Obj.get c "instance" = .str instName ∧ Obj.get c "param" = .str paramName := by
  rw [vfpAlistMatch, vfpAlistGet_obj hunique, vfpAlistGet_obj hunique, Bool.and_eq_true, beq_iff_eq, beq_iff_eq,
    ofJson_eq_str, ofJson_eq_str]

/-- The plugin keeps the transactions whose `after` list sets the parameter. -/
theorem matching_after (hdated : Dated k r) :
    (!(matching (Value.ofJson (.obj r)) "after" instName paramName).isEmpty) = true ↔
      Sets instName paramName r := by
  obtain ⟨changes, hafter, hchanges⟩ := hdated.after
  have hread : (vfpAlistGet (Value.ofJson (.obj r)) "after").toList =
      changes.map fun c => Value.ofJson (.obj c) := by
    rw [vfpAlistGet_obj hdated.unique, hafter, Value.toList_ofJson_arr, List.map_map]
    rfl
  simp only [matching, hread, Bool.not_eq_true', List.isEmpty_eq_false_iff_exists_mem,
    List.mem_filter, List.mem_map]
  constructor
  · rintro ⟨_, ⟨c, hc, rfl⟩, hmatch⟩
    obtain ⟨hinst, hparam⟩ := (vfpAlistMatch_obj (hchanges c hc)).mp hmatch
    exact ⟨_, c, hafter, List.mem_map.mpr ⟨c, hc, rfl⟩, hinst, hparam⟩
  · rintro ⟨items, c, hitems, hmem, hinst, hparam⟩
    obtain rfl : changes.map .obj = items := Json.arr.inj (hafter.symm.trans hitems)
    obtain ⟨c', hc', heq⟩ := List.mem_map.mp hmem
    obtain rfl : c' = c := Json.obj.inj heq
    exact ⟨_, ⟨c', hc', rfl⟩, (vfpAlistMatch_obj (hchanges c' hc')).mpr ⟨hinst, hparam⟩⟩

/-- The time of a dated record is its timestamp. -/
theorem timeText_obj (printer : Printer) (hdated : Dated k r) :
    timeText printer (Value.ofJson (.obj r)) = timestamp r := by
  have hget : Obj.get r "timestamp" = .str (timestamp r) := by
    rw [Obj.get, Obj.getD, hdated.stamped, Option.getD_some]
  rw [timeText, vfpAlistGet_obj hdated.unique, hget]
  rfl

/-- The history names a transaction by its id. -/
theorem car_historyEntry (hdated : Dated k r) : (historyEntry instName paramName (Value.ofJson (.obj r))).car =
    Value.ofJson (Obj.get r "transaction_id") := by
  rw [historyEntry, Encoder.list, Value.car, vfpAlistGet_obj hdated.unique]

end Reading

section Listing

variable {st : Store} {r r' : Obj} {k k' : Key}

/-- Every stored transaction is dated. -/
theorem RecordedInTime.dated_of_mem (h : RecordedInTime st) (hr : r ∈ st.records.values) : ∃ k, Dated k r := by
  obtain ⟨k, hk⟩ := Dict.mem_values_iff.mp hr
  exact ⟨k, h.dated k r hk⟩

/-- Two records with one `created_ts` are the same. -/
theorem RecordedInTime.eq_of_created (h : RecordedInTime st) (hr : r ∈ st.records.values)
    (hr' : r' ∈ st.records.values) (hsame : createdTs r = createdTs r') : r = r' := by
  obtain ⟨k, hk⟩ := Dict.mem_values_iff.mp hr
  obtain ⟨k', hk'⟩ := Dict.mem_values_iff.mp hr'
  rw [h.apart k r k' r' hk hk' hsame] at hk
  exact Option.some.inj (hk.symm.trans hk')

/-- Two records that the plugin reads one id of are the same. -/
theorem RecordedInTime.eq_of_id (h : RecordedInTime st) (hr : r ∈ st.records.values)
    (hr' : r' ∈ st.records.values)
    (hsame : Value.ofJson (Obj.get r "transaction_id") = Value.ofJson (Obj.get r' "transaction_id")) : r = r' := by
  obtain ⟨k, hk⟩ := Dict.mem_values_iff.mp hr
  obtain ⟨k', hk'⟩ := Dict.mem_values_iff.mp hr'
  have hread := valueKey_ofJson (h.dated k r hk).named (h.dated k r hk).id
  rw [hsame, valueKey_ofJson (h.dated k' r' hk').named (h.dated k' r' hk').id] at hread
  rw [Option.some.inj hread] at hk'
  exact Option.some.inj (hk.symm.trans hk')

/-- No record is stored twice. -/
theorem RecordedInTime.nodup_values (h : RecordedInTime st) : st.records.values.Nodup := by
  have hnodup : (st.records.values.filterMap some).Nodup :=
    Dict.nodup_filterMap_values (fun r => (Obj.get r "transaction_id").key?.getD .none) (by
      intro k r r' hr hsome
      obtain rfl := Option.some.inj hsome
      rw [(h.dated k r hr).id, Option.getD_some])
  rwa [List.filterMap_some] at hnodup

/-- The tunnel lists the transactions latest first. -/
theorem RecordedInTime.exec_list (h : RecordedInTime st) : (TransactionStore.list .null).exec st =
    (.ok (st.records.values.insertionSort fun a b => createdTs b ≤ createdTs a), st) := by
  have hget : ∀ r ∈ st.records.values, Obj.getD r "created_ts" (.int 0) = .float (.finite (createdTs r)) ∧
      Obj.getD r "timestamp" (.str "") = .str (timestamp r) := by
    intro r hr
    obtain ⟨k, hk⟩ := h.dated_of_mem hr
    rw [Obj.getD, hk.created, Obj.getD, hk.stamped]
    exact ⟨rfl, rfl⟩
  have hsorted := sortedDesc_eq (fun t => .arr [Obj.getD t "created_ts" (.int 0), Obj.getD t "timestamp" (.str "")])
    createdTs (l := st.records.values) (by
      intro a ha b hb
      obtain ⟨hca, hta⟩ := hget a ha
      obtain ⟨hcb, htb⟩ := hget b hb
      rw [hca, hta, hcb, htb]
      by_cases hsame : createdTs a = createdTs b
      · -- only a transaction itself has its `created_ts`
        obtain rfl := h.eq_of_created ha hb hsame
        simp [Json.lt?, Json.ltList?, Json.pyEq, Json.key?]
      · simp [Json.lt?, Json.ltList?, Json.pyEq, Json.key?, Json.isNan, Json.number?, PyFloat.lt, hsame])
  have hstatus : Json.null.truthy = false := rfl
  simp only [TransactionStore.list, listRecords, Prog.exec_bind, Prog.exec_get, hstatus, Bool.false_eq_true, if_false,
    Prog.exec_ofExcept, hsorted]

end Listing

section History

variable {s : Session} {w : World} {instName paramName : String} {r : Obj}

/-- The transactions of a parameter, as the tunnel lists them. -/
def listed (st : Store) (instName paramName : String) : List Obj :=
  (st.records.values.insertionSort fun a b => createdTs b ≤ createdTs a).filter
    fun r => !(matching (Value.ofJson (.obj r)) "after" instName paramName).isEmpty

/-- Listed are the stored transactions that set the parameter. -/
theorem mem_listed (h : RecordedInTime w.tunnel.transactions) :
    r ∈ listed w.tunnel.transactions instName paramName ↔
      r ∈ w.tunnel.transactions.records.values ∧ Sets instName paramName r := by
  rw [listed, List.mem_filter, List.mem_insertionSort]
  refine and_congr_right fun hr => ?_
  obtain ⟨k, hk⟩ := h.dated_of_mem hr
  exact matching_after hk

/-- They come latest first. -/
theorem pairwise_listed (h : RecordedInTime w.tunnel.transactions) :
    (listed w.tunnel.transactions instName paramName).Pairwise fun a b => createdTs b < createdTs a := by
  have : Std.Total fun a b : Obj => createdTs b ≤ createdTs a :=
    ⟨fun a b => le_total (createdTs b) (createdTs a)⟩
  have : IsTrans Obj fun a b => createdTs b ≤ createdTs a := ⟨fun _ _ _ h h' => h'.trans h⟩
  have hsorted := List.pairwise_insertionSort (fun a b : Obj => createdTs b ≤ createdTs a)
    w.tunnel.transactions.records.values
  have hnodup : (w.tunnel.transactions.records.values.insertionSort fun a b => createdTs b ≤ createdTs a).Nodup :=
    (List.perm_insertionSort _ _).nodup_iff.mpr h.nodup_values
  refine List.Pairwise.filter _ ((hsorted.and hnodup).imp_of_mem ?_)
  intro a b ha hb hab
  rw [List.mem_insertionSort] at ha hb
  exact lt_of_le_of_ne hab.1 fun hsame => hab.2 (h.eq_of_created ha hb hsame.symm)

/-- An answered history is the list of the tunnel, sorted again by timestamp. -/
theorem vfpParamHistory_answered (h : RecordedInTime w.tunnel.transactions)
    (hanswered : s.exchange .transactionList = .answered) :
    (vfpParamHistory s instName paramName w).1 =
      ((listed w.tunnel.transactions instName paramName).insertionSort fun a b => timestamp a ≤ timestamp b).map
        fun r => historyEntry instName paramName (Value.ofJson (.obj r)) := by
  generalize hsorted : (w.tunnel.transactions.records.values.insertionSort fun a b =>
    createdTs b ≤ createdTs a) = sorted
  have hhandle : ((handle s.env .transactionList []).exec w.tunnel).1 =
      .ok (.obj [("transactions", .arr (sorted.map .obj)), ("count", .int sorted.length)]) := by
    have hlist := h.exec_list
    rw [hsorted] at hlist
    change ((mTransactionList []).exec w.tunnel).1 = _
    have hstatus : Obj.get [] "status" = .null := rfl
    simp only [mTransactionList, Prog.exec_bind, hstatus, exec_onTransactions, hlist, Prog.exec_pure]
  have hreply : (vfpRpcExec s .transactionList [] w).1 = ⟨true, Value.ofJson
      (.obj [("transactions", .arr (sorted.map .obj)), ("count", .int sorted.length)])⟩ := by
    rw [vfpRpcExec, hanswered]
    dsimp only
    rw [hhandle]
    rfl
  have hread : (vfpAlistGet (Value.ofJson (.obj [("transactions", .arr (sorted.map .obj)),
      ("count", .int sorted.length)]))
      "transactions").toList = sorted.map fun r => Value.ofJson (.obj r) := by
    have hunique : UniqueMembers [("transactions", .arr (sorted.map .obj)), ("count", .int sorted.length)] := by
      simp [UniqueMembers]
    rw [vfpAlistGet_obj hunique]
    change (Value.ofJson (.arr (sorted.map .obj))).toList = _
    rw [Value.toList_ofJson_arr, List.map_map]
    rfl
  have hresort := List.map_insertionSort (r := fun a b : Obj => timestamp a ≤ timestamp b)
    (s := fun a b => vfpTxnTimeLess s.printer b a = false) (fun r => Value.ofJson (.obj r))
    (listed w.tunnel.transactions instName paramName) (by
      intro a ha b hb
      obtain ⟨k, hk⟩ := h.dated_of_mem ((mem_listed h).mp ha).1
      obtain ⟨k', hk'⟩ := h.dated_of_mem ((mem_listed h).mp hb).1
      rw [vfpTxnTimeLess, timeText_obj _ hk, timeText_obj _ hk', decide_eq_false_iff_not, not_lt])
  have hlisted : (sorted.map fun r => Value.ofJson (.obj r)).filter
      (fun tx => !(matching tx "after" instName paramName).isEmpty) =
        (listed w.tunnel.transactions instName paramName).map fun r => Value.ofJson (.obj r) := by
    rw [List.filter_map, listed, hsorted]
    rfl
  unfold vfpParamHistory
  dsimp only
  rw [hreply, if_pos rfl, hread, hlisted, sortBy, ← hresort, List.map_map]
  rfl

/-- A history that is not answered is empty. -/
theorem vfpParamHistory_unanswered (h : s.exchange .transactionList ≠ .answered) :
    (vfpParamHistory s instName paramName w).1 = [] := by
  have hfailed : (vfpRpcExec s .transactionList [] w).1.ok = false := by
    unfold vfpRpcExec
    split
    · contradiction
    · rfl
    · rfl
    · rfl
  rw [vfpParamHistory, hfailed]
  rfl

end History

/-- Lists that a function makes equal, which tells their elements apart, are equal. -/
theorem eq_of_map_eq {α β : Type*} {f : α → β} {l l' : List α}
    (hinj : ∀ a ∈ l, ∀ b ∈ l', f a = f b → a = b)
    (h : l.map f = l'.map f) : l = l' := by
  induction l generalizing l' with
  | nil => exact (List.map_eq_nil_iff.mp h.symm).symm
  | cons a l ih =>
    obtain ⟨b, l', rfl, hb, hrest⟩ := List.map_eq_cons_iff.mp h.symm
    have hhead : a = b := hinj a List.mem_cons_self b List.mem_cons_self hb.symm
    have htail := ih (fun x hx y hy => hinj x (List.mem_cons_of_mem _ hx) y (List.mem_cons_of_mem _ hy)) hrest.symm
    rw [hhead, htail]

/-- The history of a parameter is chronological just when the tunnel answers, or has nothing to list, and no
two of its transactions are of one second. -/
theorem vfpParamHistory_chronological_iff (s : Session) (instName paramName : String) {w : World}
    (h : RecordedInTime w.tunnel.transactions) :
    Chronological w.tunnel.transactions instName paramName (vfpParamHistory s instName paramName w).1 ↔
      (s.exchange .transactionList = .answered ∨
        ∀ r ∈ w.tunnel.transactions.records.values, ¬ Sets instName paramName r) ∧
      ∀ r ∈ w.tunnel.transactions.records.values, ∀ r' ∈ w.tunnel.transactions.records.values,
        Sets instName paramName r → Sets instName paramName r' → r ≠ r' → timestamp r ≠ timestamp r' := by
  by_cases hanswered : s.exchange .transactionList = .answered
  · rw [vfpParamHistory_answered h hanswered]
    have hmono : ∀ a ∈ listed w.tunnel.transactions instName paramName,
        ∀ b ∈ listed w.tunnel.transactions instName paramName, createdTs a ≤ createdTs b →
          timestamp a ≤ timestamp b := by
      intro a ha b hb hle
      obtain ⟨k, hk⟩ := Dict.mem_values_iff.mp ((mem_listed h).mp ha).1
      obtain ⟨k', hk'⟩ := Dict.mem_values_iff.mp ((mem_listed h).mp hb).1
      exact h.clock k a k' b hk hk' hle
    have hlatest : (listed w.tunnel.transactions instName paramName).Pairwise fun a b => createdTs b < createdTs a :=
      pairwise_listed h
    have hresort := pairwise_resort_iff hlatest hmono
    generalize hhits : ((listed w.tunnel.transactions instName paramName).insertionSort
      fun a b => timestamp a ≤ timestamp b) = hits at hresort ⊢
    have hmem : ∀ r, r ∈ hits ↔ r ∈ w.tunnel.transactions.records.values ∧ Sets instName paramName r := by
      intro r
      rw [← hhits, List.mem_insertionSort, mem_listed h]
    have hids : (hits.map fun r => historyEntry instName paramName (Value.ofJson (.obj r))).map Value.car =
        hits.map fun r => Value.ofJson (Obj.get r "transaction_id") := by
      rw [List.map_map]
      refine List.map_congr_left fun r hr => ?_
      obtain ⟨k, hk⟩ := h.dated_of_mem ((hmem r).mp hr).1
      exact car_historyEntry hk
    constructor
    · rintro ⟨hits', hids', hmem', hordered⟩
      obtain rfl : hits = hits' := by
        refine eq_of_map_eq ?_ (hids.symm.trans hids')
        intro a ha b hb hsame
        exact h.eq_of_id ((hmem a).mp ha).1 ((hmem' b).mp hb).1 hsame
      have hapart := hresort.mp hordered
      have : Std.Symm fun a b : Obj => timestamp a ≠ timestamp b := ⟨fun _ _ hne => hne.symm⟩
      refine ⟨.inl hanswered, fun r hr r' hr' hsets hsets' hne => ?_⟩
      exact hapart.forall ((mem_listed h).mpr ⟨hr, hsets⟩) ((mem_listed h).mpr ⟨hr', hsets'⟩) hne
    · rintro ⟨-, hapart⟩
      refine ⟨hits, hids, hmem, hresort.mpr ?_⟩
      have hnodup : (listed w.tunnel.transactions instName paramName).Nodup :=
        (pairwise_listed h).imp fun hlt hsame => (hsame ▸ hlt).false
      refine hnodup.pairwise_of_forall_ne fun a ha b hb hne => ?_
      obtain ⟨hr, hsets⟩ := (mem_listed h).mp ha
      obtain ⟨hr', hsets'⟩ := (mem_listed h).mp hb
      exact hapart a hr b hr' hsets hsets' hne
  · rw [vfpParamHistory_unanswered hanswered]
    constructor
    · rintro ⟨hits, hids, hmem, -⟩
      obtain rfl : hits = [] := List.map_eq_nil_iff.mp hids.symm
      have hnone : ∀ r ∈ w.tunnel.transactions.records.values, ¬ Sets instName paramName r :=
        fun r hr hsets => nomatch (hmem r).mpr ⟨hr, hsets⟩
      exact ⟨.inr hnone, fun r hr _ _ hsets => absurd hsets (hnone r hr)⟩
    · rintro ⟨hnone, -⟩
      have hnone := hnone.resolve_left hanswered
      refine ⟨[], rfl, fun r => ⟨nofun, fun hr => absurd hr.2 (hnone r hr.1)⟩, .nil⟩

section Examples

/-- The surroundings of a request at this moment. -/
def sampleMoment (uuid : String) (now : ℚ) : Env :=
  { Env.sample with
    uuid := uuid
    now := now
    iso := fun q => if q < 1 then "2026-01-01T00:00:00" else "2026-01-01T00:00:01" }

/-- A transaction that sets one parameter. -/
def sampleResize : Obj :=
  [("after", .arr [.obj [("instance", .str "R1"), ("param", .str "r"), ("value", .str "2K")]])]

/-- What the tunnel stores for it. -/
def sampleResized (uuid : String) (now : ℚ) (second : String) : Obj :=
  sampleResize ++ [("transaction_id", .str ("t_" ++ uuid)),
    ("schema_version", .str "0.1"), ("status", .str "applied"),
    ("before", .arr []), ("timestamp", .str second), ("created_ts", .float (.finite now))]

/-- Two transactions, recorded at these moments. -/
def sampleResizes (now now' : ℚ) : World :=
  ((World.mk ⟨fun _ => none, fun _ => none⟩ (Tunnel.fresh .empty) []).serve
    (sampleMoment "a" now) .transactionCreate [("transaction", .obj sampleResize)]).serve
    (sampleMoment "b" now') .transactionCreate [("transaction", .obj sampleResize)]

/-- Half a second. -/
def halfSecond : ℚ := ⟨1, 2, by decide, by decide⟩

/-- The transactions of the samples are dated. -/
theorem dated_sampleResized (uuid : String) (now : ℚ) (second : String) :
    Dated (.str ("t_" ++ uuid)) (sampleResized uuid now second) where
  id := rfl
  named := by
    have hne : "t_" ++ uuid ≠ "" := by simp
    change ("t_" ++ uuid != "") = true
    rw [bne_iff_ne]
    exact hne
  created := rfl
  stamped := rfl
  unique := by
    change (["after", "transaction_id", "schema_version", "status", "before", "timestamp", "created_ts"]).Nodup
    decide
  after := by
    refine ⟨[[("instance", .str "R1"), ("param", .str "r"), ("value", .str "2K")]], rfl, fun c hc => ?_⟩
    obtain rfl := List.mem_singleton.mp hc
    change (["instance", "param", "value"]).Nodup
    decide

/-- Two of them are recorded in the order of their times. -/
theorem recordedInTime_sample {st : Store} {now : ℚ} (second : String) (hnow : 0 < now)
    (hsecond : "2026-01-01T00:00:00" ≤ second)
    (hentries : st.records.entries =
      [(.str "t_a", sampleResized "a" 0 "2026-01-01T00:00:00"), (.str "t_b", sampleResized "b" now second)]) :
    RecordedInTime st := by
  have hstored : ∀ k r, st.records.get? k = some r →
      (k = .str "t_a" ∧ r = sampleResized "a" 0 "2026-01-01T00:00:00") ∨
        (k = .str "t_b" ∧ r = sampleResized "b" now second) := by
    intro k r hr
    have hmem := Dict.mem_entries_iff.mpr hr
    rw [hentries] at hmem
    simpa only [List.mem_cons, Prod.mk.injEq, List.not_mem_nil, or_false] using hmem
  refine ⟨?_, ?_, ?_⟩
  · intro k r hr
    rcases hstored k r hr with ⟨rfl, rfl⟩ | ⟨rfl, rfl⟩
    · exact dated_sampleResized "a" 0 "2026-01-01T00:00:00"
    · exact dated_sampleResized "b" now second
  · intro k r k' r' hr hr' hsame
    rcases hstored k r hr with ⟨rfl, rfl⟩ | ⟨rfl, rfl⟩ <;>
      rcases hstored k' r' hr' with ⟨rfl, rfl⟩ | ⟨rfl, rfl⟩
    · rfl
    · exact absurd hsame hnow.ne
    · exact absurd hsame hnow.ne'
    · rfl
  · intro k r k' r' hr hr' hle
    rcases hstored k r hr with ⟨rfl, rfl⟩ | ⟨rfl, rfl⟩ <;>
      rcases hstored k' r' hr' with ⟨rfl, rfl⟩ | ⟨rfl, rfl⟩
    · exact le_rfl
    · exact hsecond
    · exact absurd hle (not_le.mpr hnow)
    · exact le_rfl

/-- Two changes of a parameter one second apart. -/
theorem vfpParamHistory_chronological_iff_sample :
    Chronological (sampleResizes 0 1).tunnel.transactions "R1" "r"
      (vfpParamHistory .sample "R1" "r" (sampleResizes 0 1)).1 := by
  have hrecorded : RecordedInTime (sampleResizes 0 1).tunnel.transactions :=
    recordedInTime_sample "2026-01-01T00:00:01" zero_lt_one (by decide) rfl
  refine (vfpParamHistory_chronological_iff .sample "R1" "r" hrecorded).mpr ⟨.inl rfl, ?_⟩
  have hvalues : (sampleResizes 0 1).tunnel.transactions.records.values =
      [sampleResized "a" 0 "2026-01-01T00:00:00", sampleResized "b" 1 "2026-01-01T00:00:01"] := rfl
  rw [hvalues]
  intro r hr r' hr' _ _ hne
  simp only [List.mem_cons, List.not_mem_nil, or_false] at hr hr'
  rcases hr with rfl | rfl <;> rcases hr' with rfl | rfl
  · exact absurd rfl hne
  · exact show "2026-01-01T00:00:00" ≠ "2026-01-01T00:00:01" by decide
  · exact show "2026-01-01T00:00:01" ≠ "2026-01-01T00:00:00" by decide
  · exact absurd rfl hne

/-- Of two changes in one second the history lists the later first. -/
theorem vfpParamHistory_turned : ¬ ∀ (s : Session) (instName paramName : String) (w : World),
    RecordedInTime w.tunnel.transactions → s.exchange .transactionList = .answered →
      Chronological w.tunnel.transactions instName paramName (vfpParamHistory s instName paramName w).1 := by
  intro hall
  have hhalf : (0 : ℚ) < halfSecond := by decide
  have hrecorded : RecordedInTime (sampleResizes 0 halfSecond).tunnel.transactions :=
    recordedInTime_sample "2026-01-01T00:00:00" hhalf le_rfl rfl
  obtain ⟨hits, hids, hmem, hordered⟩ := hall .sample "R1" "r" (sampleResizes 0 halfSecond) hrecorded rfl
  have hlisted : (vfpParamHistory .sample "R1" "r" (sampleResizes 0 halfSecond)).1.map Value.car =
      [.str "t_b", .str "t_a"] := rfl
  rw [hlisted] at hids
  obtain ⟨first, rest, rfl, hfirst, hrest⟩ := List.map_eq_cons_iff.mp hids.symm
  obtain ⟨second, rest, rfl, hsecond, -⟩ := List.map_eq_cons_iff.mp hrest
  have hvalues : (sampleResizes 0 halfSecond).tunnel.transactions.records.values =
      [sampleResized "a" 0 "2026-01-01T00:00:00", sampleResized "b" halfSecond "2026-01-01T00:00:00"] := rfl
  have hstored : ∀ r ∈ first :: second :: rest, r = sampleResized "a" 0 "2026-01-01T00:00:00" ∨
      r = sampleResized "b" halfSecond "2026-01-01T00:00:00" := by
    intro r hr
    have hin := ((hmem r).mp hr).1
    rw [hvalues] at hin
    simpa only [List.mem_cons, List.not_mem_nil, or_false] using hin
  have hlt : createdTs first < createdTs second := List.rel_of_pairwise_cons hordered List.mem_cons_self
  rcases hstored first (by simp) with rfl | rfl
  · exact absurd hfirst (show Value.str "t_a" ≠ .str "t_b" by decide)
  · rcases hstored second (by simp) with rfl | rfl
    · exact absurd hlt (not_lt.mpr hhalf.le)
    · exact absurd hsecond (show Value.str "t_b" ≠ .str "t_a" by decide)

end Examples

end VirtuosoFlow.Plugin
