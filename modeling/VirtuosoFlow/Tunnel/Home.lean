import VirtuosoFlow.Tunnel.Containment
import VirtuosoFlow.Tunnel.DiskAgreement
import VirtuosoFlow.Tunnel.Values

/-!
# The daemon over its home directory

Requests are served one at a time and write their files below `vfp_home()`; a restart constructs the
stores anew from the files that are there. The state is the daemon together with the disk, and the
texts on the disk are those that `json.dumps` writes and `json.loads` reads.
-/

namespace VirtuosoFlow.Tunnel

open Base Base.Posix JsonText

/-- The families of records that have a store each. -/
inductive Family where
  | proposals | transactions | jobs
  deriving DecidableEq

namespace Family

/-- The member that holds the id. -/
def field : Family → String
  | .proposals => "proposal_id"
  | .transactions => "transaction_id"
  | .jobs => "job_id"

/-- The member of an answer that holds a record. -/
def member : Family → String
  | .proposals => "proposal"
  | .transactions => "transaction"
  | .jobs => "job"

/-- `proposals_dir()`, `transactions_dir()` and `jobs_dir()`. -/
def dir (home : Place) : Family → Place
  | .proposals => storeDir home "proposals"
  | .transactions => storeDir home "transactions"
  | .jobs => storeDir home "jobs"

/-- The store of a family. -/
def store : Family → Tunnel → Store
  | .proposals => Tunnel.proposals
  | .transactions => Tunnel.transactions
  | .jobs => Tunnel.jobs

/-- The method that creates a record. -/
def create : Family → Method
  | .proposals => .proposalCreate
  | .transactions => .transactionCreate
  | .jobs => .jobCreate

end Family

/-- The texts of the files. -/
abbrev Disk := Place → Option (List Char)

/-- `path.write_text(json.dumps(p, indent=2))`, for some files below a directory. -/
def writeFiles (fmt : FloatFormat) (dir : Place) (writes : List (String × Json)) (disk : Disk) : Disk :=
  writes.foldl
    (fun disk w => Function.update disk (locate dir w.1.toList) (some (dumps fmt (some 2) w.2))) disk

/-- `d.glob("*.json")` gives these names, in some order. -/
structure Globs (disk : Disk) (dir : Place) (names : List (List Char)) : Prop where
  nodup : names.Nodup
  mem : ∀ name, name ∈ names ↔ (disk (dir ++ [name])).isSome = true ∧ extension <:+ name

/-- What `_load` does with the text of one file; a text that is no JSON is passed over. -/
def loadText (fmt : FloatFormat) (field : String) (records : Dict Key Obj) (text : List Char) :
    Except PyExc (Dict Key Obj) :=
  match loads fmt text with
  | none => .ok records
  | some (.obj r) =>
    if (Obj.get r field).truthy then (hashKey (Obj.get r field)).map fun k => records.insert k r
    else .ok records
  | some _ => .error .attributeError

/-- `_load`, given the files of the directory in some order. -/
def loadStore (fmt : FloatFormat) (field : String) (disk : Disk) (dir : Place) (names : List (List Char)) :
    Except PyExc (Dict Key Obj) :=
  names.foldlM
    (fun records name =>
      match disk (dir ++ [name]) with
      | none => .ok records
      | some text => loadText fmt field records text) Dict.empty

/-- The daemon and the disk. -/
structure Home where
  tunnel : Tunnel
  disk : Disk

/-- A request, or a restart over the files that are there. -/
inductive HomeInput where
  | request (env : Env) (method : Method) (params : Obj)
  /-- A new process, with the names that each directory lists and all that is not in the three stores. -/
  | restart (names : Family → List (List Char)) (others : Tunnel)

namespace Home

variable (fmt : FloatFormat) (home : Place)

/-- The disk after a request; it writes a transaction before the proposal that it links. -/
def flush (before after : Tunnel) (disk : Disk) : Disk :=
  writeFiles fmt (Family.jobs.dir home) (newWrites before.jobs after.jobs)
    (writeFiles fmt (Family.proposals.dir home) (newWrites before.proposals after.proposals)
      (writeFiles fmt (Family.transactions.dir home) (newWrites before.transactions after.transactions) disk))

/-- The three stores constructed from the disk. -/
def reload (names : Family → List (List Char)) (others : Tunnel) (disk : Disk) : Except PyExc Tunnel := do
  let load := fun family : Family => loadStore fmt family.field disk (family.dir home) (names family)
  let proposals ← load .proposals
  let transactions ← load .transactions
  let jobs ← load .jobs
  return { others with
    proposals := ⟨proposals, []⟩, transactions := ⟨transactions, []⟩, jobs := ⟨jobs, []⟩ }

/-- One input. A process that cannot load a store does not start. -/
def step : HomeInput → Home → Except PyExc Json × Home
  | .request env method params, s =>
    let out := (handle env method params).exec s.tunnel
    (out.1, ⟨out.2, flush fmt home s.tunnel out.2 s.disk⟩)
  | .restart names others, s =>
    match reload fmt home names others s.disk with
    | .ok t => (.ok .null, ⟨t, s.disk⟩)
    | .error e => (.error e, s)

end Home

/-- The daemon started over a home without records, with whatever sessions. -/
def homeMachine (fmt : FloatFormat) (home : Place) : Machine Home HomeInput (Except PyExc Json) where
  init s := (∀ family : Family, (family.store s.tunnel).records = Dict.empty ∧
    ∀ name, s.disk (family.dir home ++ [name]) = none) ∧ SessionValues fmt s.tunnel.registry
  step := Home.step fmt home

/-- The record in an answer. -/
def Family.answered (family : Family) : Json → Option Obj
  | .obj ms =>
    match ms.lookup family.member with
    | some (.obj r) => some r
    | _ => none
  | _ => none

/-- The request that creates the record of this key was answered with success. -/
def Accepted (family : Family) (history : List (Entry Home HomeInput (Except PyExc Json))) (k : Key) : Prop :=
  ∃ e ∈ history, ∃ env params answer r, e.input = .request env family.create params ∧ e.output = .ok answer ∧
    family.answered answer = some r ∧ (Obj.get r family.field).key? = some k

section Files

variable {fmt : FloatFormat} {dir : Place} {disk : Disk}

/-- A name that is one name, and that file systems take. -/
structure PlainId (s : String) : Prop where
  slash : '/' ∉ s.toList
  nul : '\x00' ∉ s.toList
  short : (s ++ ".json").utf8ByteSize ≤ 255

instance (s : String) : Decidable (PlainId s) :=
  decidable_of_iff ('/' ∉ s.toList ∧ '\x00' ∉ s.toList ∧ (s ++ ".json").utf8ByteSize ≤ 255)
    ⟨fun h => ⟨h.1, h.2.1, h.2.2⟩, fun h => ⟨h.slash, h.nul, h.short⟩⟩

/-- The file of an id, as characters. -/
theorem fileName_eq (s : String) : fileName s = s.toList ++ extension := by
  simp [fileName, extension]

/-- Different ids have different files. -/
theorem fileName_injective {s s' : String} (h : fileName s = fileName s') : s = s' := by
  rw [fileName_eq, fileName_eq] at h
  exact String.toList_inj.mp (List.append_cancel_right h)

/-- These files lie in the directory. -/
def InDir (dir : Place) (writes : List (String × Json)) : Prop :=
  ∀ w ∈ writes, ∃ n, locate dir w.1.toList = dir ++ [n]

/-- Files are written one part after the other. -/
theorem writeFiles_append (writes rest : List (String × Json)) :
    writeFiles fmt dir (writes ++ rest) disk = writeFiles fmt dir rest (writeFiles fmt dir writes disk) :=
  List.foldl_append

/-- What stands in the directory after a file of it was written. -/
theorem writeFiles_at {s : String} {n : List Char} (hn : locate dir (s ++ ".json").toList = dir ++ [n]) (v : Json)
    (m : List Char) : writeFiles fmt dir [(s ++ ".json", v)] disk (dir ++ [m]) =
      if m = n then some (dumps fmt (some 2) v) else disk (dir ++ [m]) := by
  have hwrite : writeFiles fmt dir [(s ++ ".json", v)] disk =
      Function.update disk (locate dir (s ++ ".json").toList) (some (dumps fmt (some 2) v)) := rfl
  rw [hwrite, hn]
  by_cases hm : m = n
  · rw [hm, Function.update_self, if_pos rfl]
  · have hplace : dir ++ [m] ≠ dir ++ [n] := fun heq =>
      hm (List.singleton_inj.mp (List.append_cancel_left heq))
    rw [Function.update_of_ne hplace, if_neg hm]

/-- Files in a directory are in no other. -/
theorem writeFiles_other {dir' : Place} {writes : List (String × Json)} (h : InDir dir writes) (hdir : dir' ≠ dir)
    (n : List Char) : writeFiles fmt dir writes disk (dir' ++ [n]) = disk (dir' ++ [n]) := by
  induction writes generalizing disk with
  | nil => rfl
  | cons w writes ih =>
    obtain ⟨m, hm⟩ := h w List.mem_cons_self
    have hne : dir' ++ [n] ≠ locate dir w.1.toList := by
      rw [hm]
      exact fun heq => hdir (List.append_inj_left' heq rfl)
    rw [← List.singleton_append, writeFiles_append, ih fun w hw => h w (List.mem_cons_of_mem _ hw)]
    exact Function.update_of_ne hne _ _

/-- Different families have different directories. -/
theorem dir_injective {home : Place} {family family' : Family} (h : family.dir home = family'.dir home) :
    family = family' := by
  cases family <;> cases family' <;> simp [Family.dir, storeDir] at h ⊢

end Files

end VirtuosoFlow.Tunnel
