import VirtuosoFlow.Plugin.SimRuns

/-!
# Whose deck a requester reads

`plugin_backend` (`delegated_netlist.py`) asks the tunnel for a deck, polls until the request is done and hands on
the path it was given; the deck is read there later. Any number of plugins service the requests
(`vfpServiceNetlistRequests`), each by itself: a deck is assembled in the directory of its cellview, which is
first removed. A pass is cut here wherever another party can come in between.
-/

namespace VirtuosoFlow.Plugin

open Base
open Tunnel (Desk NetlistRequestStore.requested mNetlistRequest mNetlistGet mNetlistComplete)

/-- A request for a deck, as `plugin_backend` makes it. -/
structure DeckRequest where
  lib : String
  cell : String
  view : String
  corner : String

/-- A deck on the disk: for which cellview and corner it is assembled, and whether it is written to its end. -/
structure DeckFile where
  lib : String
  cell : String
  view : String
  corner : String
  whole : Bool

/-- The parameters of its `netlist.request`. -/
def DeckRequest.params (r : DeckRequest) : Obj :=
  [("cellview", .obj [("lib", .str r.lib), ("cell", .str r.cell), ("view", .str r.view)]),
    ("corner", .str r.corner)]

/-- The deck that is asked for; without a corner, that of the nominal one. -/
def DeckRequest.deck (r : DeckRequest) : DeckFile :=
  ⟨r.lib, r.cell, r.view, if r.corner = "" then "Nominal" else r.corner, true⟩

/-- A requester: the request that it started last, the id it was given and, once it knows it, the path. -/
structure Requester where
  request : DeckRequest
  rid : Json
  path : Option String

/-- The deck that a plugin assembles for a request it pulled, and what is left of the list. -/
structure DeckJob where
  req : Obj
  path : String
  deck : DeckFile
  rest : List Obj

/-- How far it is: the directory is removed, the netlister is at work, it has returned, or the deck was found. -/
inductive DeckStage where
  | cleared | creating | finished | found
  deriving DecidableEq

/-- Where a plugin stands in `vfpServiceNetlistRequests`. -/
inductive ServicePc where
  | idle
  | loop (reqs : List Obj)
  | working (job : DeckJob) (stage : DeckStage)
  | failed (req : Obj) (rest : List Obj)

/-- The tunnel, the decks on the disk by their paths, the plugins and the requesters. -/
structure NetlistWorld where
  desk : Desk
  disk : String → Option DeckFile
  plugins : ℕ → ServicePc
  requesters : ℕ → Option Requester

/-- What `dbOpenCellViewByType` comes to: an error, `nil`, or a cellview, in a session with or without the
netlister. -/
inductive Opening where
  | raises
  | absent
  | opened (bound : Bool)
  deriving DecidableEq

/-- What a plugin can do next: pull the pending requests, open the cellview of the next one and remove its
directory (which `rm -rf` may fail to do), open the setup, write at the deck, come back from the netlister with the
deck or without (and then what is there stays), look for the deck, report or fail to, and end. -/
inductive PluginAct where
  | pull
  | start (opening : Opening) (removed : Bool)
  | setup (found : Bool)
  | write
  | finish (produced : Bool)
  | check
  | report (env : Tunnel.Env)
  | lost
  | quit

/-- What can happen: a requester starts a request, polls it, gives it up or reads the deck at the path it knows, or
a plugin goes on. -/
inductive NetlistInput where
  | request (q : ℕ) (env : Tunnel.Env) (r : DeckRequest)
  | poll (q : ℕ)
  | giveUp (q : ℕ)
  | read (q : ℕ)
  | plugin (p : ℕ) (act : PluginAct)

/-- The deck that a pulled request asks for. -/
def deckAsked (req : Obj) : Option DeckFile :=
  let cv := Obj.get req "cellview"
  match answerGet cv "lib", answerGet cv "cell", answerGet cv "view", Obj.get req "corner" with
  | .str lib, .str cell, .str view, .str corner => some ⟨lib, cell, view, corner, true⟩
  | _, _, _, _ => none

/-- The path of a deck below a `vfpNetlistDir()`. -/
def deckFilePath (dir : String) (deck : DeckFile) : String :=
  dir ++ "/" ++ deck.lib ++ "__" ++ deck.cell ++ "__" ++ deck.view ++ "/netlist/input.scs"

/-- The path that a polled request gives: `r.get("deck") or None`, once it is done. -/
def polledPath (answer : Except Tunnel.PyExc Json) : Option String :=
  match answer with
  | .error _ => none
  | .ok answer =>
    let req := answerGet answer "request"
    if (answerGet req "status").pyEq (.str "done") then
      match answerGet req "deck" with
      | .str path => if path = "" then none else some path
      | _ => none
    else none

section Machine

variable (dirs : ℕ → String)

/-- A plugin comes to a place in its pass. -/
def NetlistWorld.at (w : NetlistWorld) (p : ℕ) (pc : ServicePc) : NetlistWorld :=
  { w with plugins := Function.update w.plugins p pc }

/-- A path gets a deck, or loses it. -/
def NetlistWorld.put (w : NetlistWorld) (path : String) (deck : Option DeckFile) : NetlistWorld :=
  { w with disk := Function.update w.disk path deck }

/-- The body of the loop up to `rm -rf`. -/
def NetlistWorld.begin (w : NetlistWorld) (p : ℕ) (opening : Opening) (removed : Bool) (req : Obj)
    (rest : List Obj) : NetlistWorld :=
  match opening, deckAsked req with
  | .raises, _ => w.at p .idle
  | .opened true, some deck =>
    let path := deckFilePath (dirs p) deck
    (w.put path (if removed then none else w.disk path)).at p (.working ⟨req, path, deck, rest⟩ .cleared)
  | _, _ => w.at p (.failed req rest)

/-- `netlist.complete`. -/
def NetlistWorld.complete (w : NetlistWorld) (env : Tunnel.Env) (params : Obj) : NetlistWorld :=
  { w with desk := ((mNetlistComplete env params).exec w.desk).2 }

/-- One step of a plugin. -/
def NetlistWorld.service (w : NetlistWorld) (p : ℕ) : PluginAct → NetlistWorld
  | .pull =>
    match w.plugins p with
    | .idle => w.at p (.loop (pendingNetlists w.desk))
    | _ => w
  | .start opening removed =>
    match w.plugins p with
    | .loop [] => w.at p .idle
    | .loop (req :: rest) => w.begin dirs p opening removed req rest
    | _ => w
  | .setup found =>
    match w.plugins p with
    | .working job .cleared => w.at p (if found then .working job .creating else .failed job.req job.rest)
    | _ => w
  | .write =>
    match w.plugins p with
    | .working job .creating =>
      (w.put job.path (some { job.deck with whole := false })).at p (.working job .creating)
    | _ => w
  | .finish produced =>
    match w.plugins p with
    | .working job .creating =>
      (w.put job.path (if produced then some job.deck else w.disk job.path)).at p (.working job .finished)
    | _ => w
  | .check =>
    match w.plugins p with
    | .working job .finished =>
      w.at p (if (w.disk job.path).isSome then .working job .found else .failed job.req job.rest)
    | _ => w
  | .report env =>
    match w.plugins p with
    | .working job .found =>
      (w.at p (.loop job.rest)).complete env
        [("request_id", Obj.get job.req "request_id"), ("deck", .str job.path)]
    | .failed req rest =>
      (w.at p (.loop rest)).complete env
        [("request_id", Obj.get req "request_id"), ("error", .str "netlist failed")]
    | _ => w
  | .lost =>
    match w.plugins p with
    | .working job .found => w.at p (.loop job.rest)
    | .failed _ rest => w.at p (.loop rest)
    | _ => w
  | .quit => w.at p .idle

/-- One step, with the deck that a read finds. -/
def NetlistWorld.step : NetlistInput → NetlistWorld → Option DeckFile × NetlistWorld
  | .request q env r, w =>
    let out := (mNetlistRequest env r.params).exec w.desk
    (none, { w with
      desk := out.2
      requesters := Function.update w.requesters q
        (out.1.toOption.map fun answer => ⟨r, answerGet answer "request_id", none⟩) })
  | .poll q, w =>
    match w.requesters q with
    | none => (none, w)
    | some r =>
      let answer := ((mNetlistGet [("request_id", r.rid)]).exec w.desk).1
      (none, { w with
        requesters := Function.update w.requesters q (some { r with path := r.path.or (polledPath answer) }) })
  | .giveUp q, w => (none, { w with requesters := Function.update w.requesters q none })
  | .read q, w => ((w.requesters q).bind fun r => r.path.bind w.disk, w)
  | .plugin p act, w => (none, w.service dirs p act)

/-- The tunnel starts, no plugin is at work, and any decks are left on the disk. -/
def netlistMachine : Machine NetlistWorld NetlistInput (Option DeckFile) where
  init w := Tunnel.desk.init w.desk ∧ (∀ p, w.plugins p = .idle) ∧ ∀ q, w.requesters q = none
  step := NetlistWorld.step dirs

end Machine

/-- A requester reads at a path, or will once it polls. -/
def Requester.Awaits (d : Desk) (r : Requester) (path : String) : Prop :=
  r.path = some path ∨ ∃ k req, r.rid.key? = some k ∧ d.netlists.get? k = some req ∧
    Obj.get req "status" = .str "done" ∧ Obj.get req "deck" = .str path

/-- The path at which a plugin assembles a deck. -/
def ServicePc.path : ServicePc → Option String
  | .working job _ => some job.path
  | _ => none

/-- The requests that a plugin has pulled and is not done with. -/
def ServicePc.pulled : ServicePc → List Obj
  | .idle => []
  | .loop reqs => reqs
  | .working job _ => job.req :: job.rest
  | .failed req rest => req :: rest

/-- Nobody but this plugin assembles a deck at the path, and no requester is to read there. -/
def NetlistWorld.Free (w : NetlistWorld) (p : ℕ) (path : String) : Prop :=
  (∀ p', p' ≠ p → (w.plugins p').path ≠ some path) ∧
    ∀ q r, w.requesters q = some r → ¬ r.Awaits w.desk path

/-- The steps that keep the decks apart: the ids drawn are new, a directory is removed only if nobody else is at work
in it or to read in it, and a netlister that comes back without its deck leaves none there, neither an old one nor
part of the new one. -/
def DecksApart (dirs : ℕ → String) (w : NetlistWorld) : NetlistInput → Prop
  | .request _ env _ => w.desk.netlists.get? (.str ("nlr_" ++ env.uuid)) = none
  | .plugin p (.start (.opened true) _) => ∀ req rest deck, w.plugins p = .loop (req :: rest) →
      deckAsked req = some deck → w.Free p (deckFilePath (dirs p) deck)
  | .plugin p (.finish false) => ∀ job, w.plugins p = .working job .creating → w.disk job.path = none
  | _ => True

section Steps

variable {dirs : ℕ → String} {w : NetlistWorld} {p : ℕ} {path : String} {pc : ServicePc} {deck : Option DeckFile}

/-- A request that was pulled is stored, and still asks for the same deck. -/
def Asked (d : Desk) (req : Obj) : Prop :=
  ∃ k req', (Obj.get req "request_id").key? = some k ∧ d.netlists.get? k = some req' ∧
    deckAsked req' = deckAsked req

/-- A plugin assembles the deck that its request asks for, and what it found on the disk is that deck. -/
def ServicePc.Sound (disk : String → Option DeckFile) : ServicePc → Prop
  | .working job stage => deckAsked job.req = some job.deck ∧
      (stage = .finished → disk job.path = none ∨ disk job.path = some job.deck) ∧
      (stage = .found → disk job.path = some job.deck)
  | _ => True

/-- What holds between the steps: whoever is to read at a path finds the own deck there. -/
structure DecksKept (w : NetlistWorld) : Prop where
  keyed : Tunnel.RequestsKeyed w.desk
  pulled : ∀ p, ∀ req ∈ (w.plugins p).pulled, Asked w.desk req
  asked : ∀ q r, w.requesters q = some r → ∃ k req, r.rid.key? = some k ∧ w.desk.netlists.get? k = some req ∧
    deckAsked req = some r.request.deck
  sound : ∀ p, (w.plugins p).Sound w.disk
  free : ∀ p path, (w.plugins p).path = some path → w.Free p path
  own : ∀ q r path, w.requesters q = some r → r.Awaits w.desk path → w.disk path = some r.request.deck

/-- A plugin is where it has come to. -/
@[simp]
theorem at_plugins_self : (w.at p pc).plugins p = pc := Function.update_self _ _ _

/-- The other plugins stay where they are. -/
theorem at_plugins_of_ne {p' : ℕ} (hne : p' ≠ p) : (w.at p pc).plugins p' = w.plugins p' :=
  Function.update_of_ne hne _ _

/-- A plugin moves on, at the same path or at none. -/
theorem DecksKept.move (h : DecksKept w) (hpulled : ∀ req ∈ pc.pulled, Asked w.desk req) (hsound : pc.Sound w.disk)
    (hpath : ∀ path, pc.path = some path → (w.plugins p).path = some path) : DecksKept (w.at p pc) := by
  have hpaths : ∀ p' path, ((w.at p pc).plugins p').path = some path → (w.plugins p').path = some path := by
    intro p' path hp'
    by_cases hp : p' = p
    · subst hp
      rw [at_plugins_self] at hp'
      exact hpath path hp'
    · rwa [at_plugins_of_ne hp] at hp'
  refine ⟨h.keyed, ?_, h.asked, ?_, ?_, h.own⟩
  · intro p' req hreq
    by_cases hp : p' = p
    · subst hp
      rw [at_plugins_self] at hreq
      exact hpulled req hreq
    · rw [at_plugins_of_ne hp] at hreq
      exact h.pulled p' req hreq
  · intro p'
    by_cases hp : p' = p
    · subst hp
      rw [at_plugins_self]
      exact hsound
    · rw [at_plugins_of_ne hp]
      exact h.sound p'
  · intro p' path hp'
    obtain ⟨hapart, hunread⟩ := h.free p' path (hpaths p' path hp')
    exact ⟨fun p'' hne hp'' => hapart p'' hne (hpaths p'' path hp''), hunread⟩

/-- A plugin moves on to where it has no path. -/
theorem DecksKept.leave (h : DecksKept w) (hpath : pc.path = none) (hpulled : ∀ req ∈ pc.pulled, Asked w.desk req) :
    DecksKept (w.at p pc) := by
  refine h.move hpulled ?_ fun path hsome => ?_
  · cases pc with
    | working job stage => cases hpath
    | _ => trivial
  · rw [hpath] at hsome
    cases hsome

/-- A plugin changes the disk at a path that is free for it. -/
theorem DecksKept.write (h : DecksKept w) (hfree : w.Free p path) (hpc : pc.path = some path)
    (hpulled : ∀ req ∈ pc.pulled, Asked w.desk req) (hsound : pc.Sound (Function.update w.disk path deck)) :
    DecksKept ((w.put path deck).at p pc) := by
  have hother : ∀ p', p' ≠ p → ((w.put path deck).at p pc).plugins p' = w.plugins p' :=
    fun _ hne => at_plugins_of_ne hne
  have hdisk : ∀ path', path' ≠ path → ((w.put path deck).at p pc).disk path' = w.disk path' :=
    fun path' hne => Function.update_of_ne hne _ _
  refine ⟨h.keyed, ?_, h.asked, ?_, ?_, ?_⟩
  · intro p' req hreq
    by_cases hp : p' = p
    · subst hp
      rw [at_plugins_self] at hreq
      exact hpulled req hreq
    · rw [hother p' hp] at hreq
      exact h.pulled p' req hreq
  · intro p'
    by_cases hp : p' = p
    · subst hp
      rw [at_plugins_self]
      exact hsound
    · have hpath := hfree.1 p' hp
      have hbefore := h.sound p'
      rw [hother p' hp]
      cases hpc' : w.plugins p' with
      | working job stage =>
        rw [hpc'] at hpath hbefore
        have hne : job.path ≠ path := fun heq => hpath (congrArg some heq)
        rw [ServicePc.Sound, hdisk _ hne]
        exact hbefore
      | _ => trivial
  · intro p' path' hp'
    by_cases hp : p' = p
    · subst hp
      rw [at_plugins_self, hpc] at hp'
      obtain rfl := Option.some.inj hp'
      exact ⟨fun p'' hne => by rw [hother p'' hne]; exact hfree.1 p'' hne, hfree.2⟩
    · rw [hother p' hp] at hp'
      obtain ⟨hapart, hunread⟩ := h.free p' path' hp'
      refine ⟨fun p'' hne => ?_, hunread⟩
      by_cases hp'' : p'' = p
      · subst hp''
        rw [at_plugins_self, hpc]
        rintro heq
        exact hfree.1 p' hp (hp'.trans heq.symm)
      · rw [hother p'' hp'']
        exact hapart p'' hne
  · intro q r path' hr hawaits
    have hne : path' ≠ path := by
      rintro rfl
      exact hfree.2 q r hr hawaits
    rw [hdisk path' hne]
    exact h.own q r path' hr hawaits

/-- A completion changes at most the record under the key of its id. -/
theorem complete_netlists (w : NetlistWorld) (env : Tunnel.Env) (params : Obj) :
    (w.complete env params).desk.netlists = w.desk.netlists ∨
    ∃ k req, (Obj.get params "request_id").key? = some k ∧ w.desk.netlists.get? k = some req ∧
      (w.complete env params).desk.netlists = w.desk.netlists.insert k (Tunnel.NetlistRequestStore.completed env
        (Obj.get params "deck") (Obj.get params "error") req) := by
  rcases Tunnel.mNetlistComplete_netlists env params w.desk with ⟨hsame, -⟩ | ⟨k, req, -, hkey, hget, hinsert⟩
  · exact .inl hsame
  · exact .inr ⟨k, req, hkey, hget, hinsert⟩

/-- What a completion lets a requester read. -/
theorem awaits_complete {env : Tunnel.Env} {params : Obj} {r : Requester}
    (h : r.Awaits (w.complete env params).desk path) :
    r.Awaits w.desk path ∨ ∃ k req, r.rid.key? = some k ∧ (Obj.get params "request_id").key? = some k ∧
      w.desk.netlists.get? k = some req ∧ Obj.get params "deck" = .str path ∧
      (Obj.get params "error").truthy = false := by
  rcases h with hpath | ⟨k, req, hkey, hget, hstatus, hdeck⟩
  · exact .inl (.inl hpath)
  · rcases complete_netlists w env params with hsame | ⟨k', req', hkey', hget', hinsert⟩
    · rw [hsame] at hget
      exact .inl (.inr ⟨k, req, hkey, hget, hstatus, hdeck⟩)
    · rw [hinsert, Dict.get?_insert] at hget
      split at hget
      · rename_i hk
        subst hk
        obtain rfl := Option.some.inj hget
        have hdone : (Obj.get params "error").truthy = false := by
          by_contra htrue
          rw [Bool.not_eq_false] at htrue
          simp [Tunnel.NetlistRequestStore.completed, htrue] at hstatus
        refine .inr ⟨k, req', hkey, hkey', hget', ?_, hdone⟩
        simpa [Tunnel.NetlistRequestStore.completed] using hdeck
      · exact .inl (.inr ⟨k, req, hkey, hget, hstatus, hdeck⟩)

/-- A completion leaves what the requests ask for. -/
theorem stored_complete (env : Tunnel.Env) (params : Obj) {req : Obj} {k : Key}
    (h : w.desk.netlists.get? k = some req) :
    ∃ req', (w.complete env params).desk.netlists.get? k = some req' ∧ deckAsked req' = deckAsked req := by
  rcases complete_netlists w env params with hsame | ⟨k', req', -, hget', hinsert⟩
  · rw [hsame]
    exact ⟨req, h, rfl⟩
  · rw [hinsert, Dict.get?_insert]
    split
    · rename_i hk
      subst hk
      obtain rfl := Option.some.inj (hget'.symm.trans h)
      refine ⟨_, rfl, ?_⟩
      simp [deckAsked, Tunnel.NetlistRequestStore.completed]
    · exact ⟨req, h, rfl⟩

/-- A request is completed, with a path where nobody is at work and where the deck lies that it asks for. -/
theorem DecksKept.complete (h : DecksKept w) (env : Tunnel.Env) (params : Obj)
    (hdeck : ∀ path, Obj.get params "deck" = .str path → (Obj.get params "error").truthy = false →
      (∀ p, (w.plugins p).path ≠ some path) ∧ ∀ k req, (Obj.get params "request_id").key? = some k →
        w.desk.netlists.get? k = some req → w.disk path = deckAsked req) : DecksKept (w.complete env params) := by
  refine ⟨Tunnel.requestsKeyed_step h.keyed (.netlist env .netlistComplete params), ?_, ?_, h.sound, ?_, ?_⟩
  · intro p req hreq
    obtain ⟨k, req', hkey, hget, hsame⟩ := h.pulled p req hreq
    obtain ⟨req'', hget', hsame'⟩ := stored_complete env params hget
    exact ⟨k, req'', hkey, hget', hsame'.trans hsame⟩
  · intro q r hr
    obtain ⟨k, req, hkey, hget, hsame⟩ := h.asked q r hr
    obtain ⟨req', hget', hsame'⟩ := stored_complete env params hget
    exact ⟨k, req', hkey, hget', hsame'.trans hsame⟩
  · intro p path hp
    obtain ⟨hapart, hunread⟩ := h.free p path hp
    refine ⟨hapart, fun q r hr hawaits => ?_⟩
    rcases awaits_complete hawaits with hbefore | ⟨k, req, -, -, -, hpath, hdone⟩
    · exact hunread q r hr hbefore
    · exact (hdeck path hpath hdone).1 p hp
  · intro q r path hr hawaits
    rcases awaits_complete hawaits with hbefore | ⟨k, req, hkey, hid, hget, hpath, hdone⟩
    · exact h.own q r path hr hbefore
    · obtain ⟨k', req', hkey', hget', hsame⟩ := h.asked q r hr
      obtain rfl : k = k' := Option.some.inj (hkey.symm.trans hkey')
      obtain rfl : req = req' := Option.some.inj (hget.symm.trans hget')
      exact ((hdeck path hpath hdone).2 k req hid hget).trans hsame

/-- A request that is pending is stored under its id. -/
theorem asked_of_pending (hkeyed : Tunnel.RequestsKeyed w.desk) {req : Obj} (h : req ∈ pendingNetlists w.desk) :
    Asked w.desk req := by
  obtain ⟨k, hget⟩ := Dict.mem_values_iff.mp (List.mem_filter.mp h).1
  obtain ⟨id, rfl, -, hid, -⟩ := hkeyed .netlist k req hget
  rw [Tunnel.Kind.idField] at hid
  exact ⟨.str id, req, by rw [hid]; rfl, hget, rfl⟩

/-- A plugin that has its directory removed starts on the deck of the next request. -/
theorem decksKept_begin {opening : Opening} {removed : Bool} {req : Obj} {rest : List Obj} (h : DecksKept w)
    (hpulled : ∀ req' ∈ req :: rest, Asked w.desk req')
    (hfree : ∀ deck, opening = .opened true → deckAsked req = some deck → w.Free p (deckFilePath (dirs p) deck)) :
    DecksKept (w.begin dirs p opening removed req rest) := by
  unfold NetlistWorld.begin
  split
  · exact h.leave rfl fun req hreq => by cases hreq
  · rename_i deck hasked
    refine h.write (hfree deck rfl hasked) rfl hpulled ⟨hasked, ?_, ?_⟩ <;> rintro ⟨⟩
  · exact h.leave rfl hpulled

/-- A plugin reports what it found, or that there was no deck. -/
theorem decksKept_report (h : DecksKept w) (p : ℕ) (env : Tunnel.Env) :
    DecksKept (w.service dirs p (.report env)) := by
  have hsound := h.sound p
  have hpulled := h.pulled p
  have hfree := h.free p
  unfold NetlistWorld.service
  dsimp only
  split
  · rename_i job hpc
    rw [hpc] at hsound hpulled hfree
    have hmoved : DecksKept (w.at p (.loop job.rest)) :=
      h.leave rfl fun req hreq => hpulled req (List.mem_cons_of_mem _ hreq)
    refine hmoved.complete env _ fun path hpath _ => ?_
    obtain rfl : job.path = path := Json.str.inj hpath
    refine ⟨fun p' hp' => ?_, fun k req hkey hget => ?_⟩
    · by_cases hp : p' = p
      · subst hp
        rw [at_plugins_self] at hp'
        cases hp'
      · rw [at_plugins_of_ne hp] at hp'
        exact (hfree job.path rfl).1 p' hp hp'
    · obtain ⟨k', req', hkey', hget', hsame⟩ := hpulled job.req List.mem_cons_self
      obtain rfl : k = k' := Option.some.inj (hkey.symm.trans hkey')
      obtain rfl : req = req' := Option.some.inj (hget.symm.trans hget')
      rw [hsame, hsound.1]
      exact hsound.2.2 rfl
  · rename_i req rest hpc
    rw [hpc] at hpulled
    have hmoved : DecksKept (w.at p (.loop rest)) :=
      h.leave rfl fun req hreq => hpulled req (List.mem_cons_of_mem _ hreq)
    exact hmoved.complete env _ fun path _ herror => by cases herror
  · exact h

/-- A plugin that keeps the decks apart keeps them. -/
theorem decksKept_service (h : DecksKept w) (p : ℕ) {act : PluginAct} (hok : DecksApart dirs w (.plugin p act)) :
    DecksKept (w.service dirs p act) := by
  have hsound := h.sound p
  have hpulled := h.pulled p
  have hfree := h.free p
  cases act with
  | pull =>
    unfold NetlistWorld.service
    dsimp only
    split
    · exact h.leave rfl fun req hreq => asked_of_pending h.keyed hreq
    · exact h
  | start opening removed =>
    unfold NetlistWorld.service
    dsimp only
    split
    · exact h.leave rfl fun req hreq => by cases hreq
    · rename_i req rest hpc
      rw [hpc] at hpulled
      refine decksKept_begin h hpulled fun deck hopened hasked => ?_
      subst hopened
      exact hok req rest deck hpc hasked
    · exact h
  | setup found =>
    unfold NetlistWorld.service
    dsimp only
    split
    · rename_i job hpc
      rw [hpc] at hsound hpulled hfree
      cases found with
      | true =>
        refine h.move hpulled ⟨hsound.1, ?_, ?_⟩ fun path hpath => by rw [hpc]; exact hpath
        · rintro ⟨⟩
        · rintro ⟨⟩
      | false => exact h.leave rfl hpulled
    · exact h
  | write =>
    unfold NetlistWorld.service
    dsimp only
    split
    · rename_i job hpc
      rw [hpc] at hsound hpulled hfree
      refine h.write (hfree job.path rfl) rfl hpulled ⟨hsound.1, ?_, ?_⟩
      · rintro ⟨⟩
      · rintro ⟨⟩
    · exact h
  | finish produced =>
    unfold NetlistWorld.service
    dsimp only
    split
    · rename_i job hpc
      rw [hpc] at hsound hpulled hfree
      refine h.write (hfree job.path rfl) rfl hpulled ⟨hsound.1, fun _ => ?_, ?_⟩
      · rw [Function.update_self]
        cases produced with
        | true => exact .inr rfl
        | false => exact .inl (hok job hpc)
      · rintro ⟨⟩
    · exact h
  | check =>
    unfold NetlistWorld.service
    dsimp only
    split
    · rename_i job hpc
      rw [hpc] at hsound hpulled hfree
      cases hdisk : w.disk job.path with
      | none => exact h.leave rfl hpulled
      | some deck =>
        refine h.move hpulled ⟨hsound.1, ?_, fun _ => ?_⟩ fun path hpath => by rw [hpc]; exact hpath
        · rintro ⟨⟩
        · refine (hsound.2.1 rfl).resolve_left fun hnone => ?_
          rw [hdisk] at hnone
          cases hnone
    · exact h
  | report env => exact decksKept_report h p env
  | lost =>
    unfold NetlistWorld.service
    dsimp only
    split
    · rename_i job hpc
      rw [hpc] at hpulled
      exact h.leave rfl fun req hreq => hpulled req (List.mem_cons_of_mem _ hreq)
    · rename_i req rest hpc
      rw [hpc] at hpulled
      exact h.leave rfl fun req hreq => hpulled req (List.mem_cons_of_mem _ hreq)
    · exact h
  | quit => exact h.leave rfl fun req hreq => by cases hreq

/-- The id that a requester is given, and the request that is then stored under it. -/
theorem exec_netlistRequest (env : Tunnel.Env) (r : DeckRequest) (d : Desk) :
    ((mNetlistRequest env r.params).exec d).1 = .ok (.obj [("request_id", .str ("nlr_" ++ env.uuid)),
      ("status", .str "pending")]) ∧
    ((mNetlistRequest env r.params).exec d).2.netlists = d.netlists.insert (.str ("nlr_" ++ env.uuid))
      (NetlistRequestStore.requested env (.obj [("lib", .str r.lib), ("cell", .str r.cell), ("view", .str r.view)])
        (.str r.corner)) :=
  ⟨rfl, rfl⟩

/-- A new request asks for the deck of its requester. -/
theorem deckAsked_requested (env : Tunnel.Env) (r : DeckRequest) :
    deckAsked (NetlistRequestStore.requested env
      (.obj [("lib", .str r.lib), ("cell", .str r.cell), ("view", .str r.view)]) (.str r.corner)) =
      some r.deck := by
  have hcorner : Tunnel.pyOr (.str r.corner) (.str "Nominal") =
      .str (if r.corner = "" then "Nominal" else r.corner) := by
    by_cases hempty : r.corner = "" <;> simp [Tunnel.pyOr, hempty]
  rw [NetlistRequestStore.requested, hcorner]
  rfl

/-- A path that is polled is that of the stored request, which is done. -/
theorem polledPath_request {req : Obj} (h : polledPath (.ok (.obj [("request", .obj req)])) = some path) :
    Obj.get req "status" = .str "done" ∧ Obj.get req "deck" = .str path := by
  change (if (Obj.get req "status").pyEq (.str "done") then match Obj.get req "deck" with
    | .str path => if path = "" then none else some path
    | _ => none else none) = some path at h
  split at h
  · rename_i hdone
    refine ⟨Json.pyEq_str.mp hdone, ?_⟩
    split at h
    · rename_i path' hdeck
      split at h
      · cases h
      · obtain rfl := Option.some.inj h
        exact hdeck
    · cases h
  · cases h

/-- What a poll finds is the path of the stored request. -/
theorem awaits_of_polled {d : Desk} {r : Requester}
    (h : polledPath ((mNetlistGet [("request_id", r.rid)]).exec d).1 = some path) : r.Awaits d path := by
  cases hanswer : ((mNetlistGet [("request_id", r.rid)]).exec d).1 with
  | error e =>
    rw [hanswer] at h
    cases h
  | ok answer =>
    obtain ⟨k, req, hkey, hget, rfl⟩ := Tunnel.mNetlistGet_answers hanswer
    rw [hanswer] at h
    exact .inr ⟨k, req, hkey, hget, polledPath_request h⟩

/-- A requester comes to another state, in which it reads at no path that it would not have read at before. -/
theorem DecksKept.requester (h : DecksKept w) {q : ℕ} {r' : Option Requester}
    (hasked : ∀ r, r' = some r → ∃ r₀, w.requesters q = some r₀ ∧ r.rid = r₀.rid ∧ r.request = r₀.request ∧
      ∀ path, r.Awaits w.desk path → r₀.Awaits w.desk path) :
    DecksKept { w with requesters := Function.update w.requesters q r' } := by
  have hbefore : ∀ q' r, Function.update w.requesters q r' q' = some r → ∃ r₀, w.requesters q' = some r₀ ∧
      r.rid = r₀.rid ∧ r.request = r₀.request ∧ ∀ path, r.Awaits w.desk path → r₀.Awaits w.desk path := by
    intro q' r hr
    by_cases hq : q' = q
    · subst hq
      rw [Function.update_self] at hr
      exact hasked r hr
    · rw [Function.update_of_ne hq] at hr
      exact ⟨r, hr, rfl, rfl, fun _ => id⟩
  refine ⟨h.keyed, h.pulled, ?_, h.sound, ?_, ?_⟩
  · intro q' r hr
    obtain ⟨r₀, hr₀, hrid, hrequest, -⟩ := hbefore q' r hr
    rw [hrid, hrequest]
    exact h.asked q' r₀ hr₀
  · intro p path hp
    refine ⟨(h.free p path hp).1, fun q' r hr hawaits => ?_⟩
    obtain ⟨r₀, hr₀, -, -, hreads⟩ := hbefore q' r hr
    exact (h.free p path hp).2 q' r₀ hr₀ (hreads path hawaits)
  · intro q' r path hr hawaits
    obtain ⟨r₀, hr₀, -, hrequest, hreads⟩ := hbefore q' r hr
    rw [hrequest]
    exact h.own q' r₀ path hr₀ (hreads path hawaits)

/-- A requester polls its request. -/
theorem decksKept_poll (h : DecksKept w) (q : ℕ) : DecksKept (w.step dirs (.poll q)).2 := by
  unfold NetlistWorld.step
  dsimp only
  split
  · exact h
  · rename_i r hr
    refine h.requester fun r' hr' => ⟨r, hr, ?_⟩
    obtain rfl := Option.some.inj hr'
    refine ⟨rfl, rfl, fun path hawaits => ?_⟩
    rcases hawaits with hpath | hlater
    · cases hknown : r.path with
      | some known =>
        rw [hknown] at hpath
        exact .inl (hknown.trans hpath)
      | none =>
        rw [hknown] at hpath
        exact awaits_of_polled hpath
    · exact .inr hlater

/-- Whoever reads at a path once a request is stored was to read there before. -/
theorem awaits_of_requested {d d' : Desk} {env : Tunnel.Env} {cellview corner : Json} {r : Requester}
    (hinsert : d'.netlists = d.netlists.insert (.str ("nlr_" ++ env.uuid))
      (NetlistRequestStore.requested env cellview corner)) (h : r.Awaits d' path) : r.Awaits d path := by
  rcases h with hpath | ⟨k, req, hkey, hget, hstatus, hdeck⟩
  · exact .inl hpath
  · rw [hinsert, Dict.get?_insert] at hget
    split at hget
    · obtain rfl := Option.some.inj hget
      have hpending : "pending" = "done" := Json.str.inj hstatus
      exact absurd hpending (by decide)
    · exact .inr ⟨k, req, hkey, hget, hstatus, hdeck⟩

/-- A requester starts a request. -/
theorem decksKept_request (h : DecksKept w) (q : ℕ) {env : Tunnel.Env} (r : DeckRequest)
    (hnew : w.desk.netlists.get? (.str ("nlr_" ++ env.uuid)) = none) :
    DecksKept (w.step dirs (.request q env r)).2 := by
  obtain ⟨hanswer, hnetlists⟩ := exec_netlistRequest env r w.desk
  have hstays : ∀ k req, w.desk.netlists.get? k = some req →
      ((mNetlistRequest env r.params).exec w.desk).2.netlists.get? k = some req := by
    intro k req hget
    rw [hnetlists, Dict.get?_insert]
    split
    · rename_i hk
      rw [hk, hnew] at hget
      cases hget
    · exact hget
  set r' : Requester := ⟨r, .str ("nlr_" ++ env.uuid), none⟩ with hr'
  have hrequesters : ∀ q' r₁, (w.step dirs (.request q env r)).2.requesters q' = some r₁ →
      r₁ = r' ∨ w.requesters q' = some r₁ := by
    intro q' r₁ hr₁
    simp only [NetlistWorld.step, hanswer] at hr₁
    by_cases hq : q' = q
    · subst hq
      rw [Function.update_self] at hr₁
      exact .inl (Option.some.inj hr₁).symm
    · rw [Function.update_of_ne hq] at hr₁
      exact .inr hr₁
  have hawaits : ∀ path, ¬ r'.Awaits ((mNetlistRequest env r.params).exec w.desk).2 path := by
    intro path hr'
    rcases awaits_of_requested hnetlists hr' with hpath | ⟨k, req, hkey, hget, -⟩
    · cases hpath
    · obtain rfl := Option.some.inj hkey
      rw [hnew] at hget
      cases hget
  refine ⟨Tunnel.requestsKeyed_step h.keyed (.netlist env .netlistRequest r.params), ?_, ?_, h.sound, ?_, ?_⟩
  · intro p req hreq
    obtain ⟨k, req', hkey, hget, hsame⟩ := h.pulled p req hreq
    exact ⟨k, req', hkey, hstays k req' hget, hsame⟩
  · intro q' r₁ hr₁
    rcases hrequesters q' r₁ hr₁ with rfl | hold
    · refine ⟨_, _, rfl, ?_, deckAsked_requested env r⟩
      change ((mNetlistRequest env r.params).exec w.desk).2.netlists.get? _ = _
      rw [hnetlists, Dict.get?_insert_self]
    · obtain ⟨k, req, hkey, hget, hsame⟩ := h.asked q' r₁ hold
      exact ⟨k, req, hkey, hstays k req hget, hsame⟩
  · intro p path hp
    refine ⟨(h.free p path hp).1, fun q' r₁ hr₁ hreads => ?_⟩
    rcases hrequesters q' r₁ hr₁ with rfl | hold
    · exact hawaits path hreads
    · exact (h.free p path hp).2 q' r₁ hold (awaits_of_requested hnetlists hreads)
  · intro q' r₁ path hr₁ hreads
    rcases hrequesters q' r₁ hr₁ with rfl | hold
    · exact absurd hreads (hawaits path)
    · exact h.own q' r₁ path hold (awaits_of_requested hnetlists hreads)

/-- Every step that keeps the decks apart keeps them. -/
theorem decksKept_step (i : NetlistInput) (hok : DecksApart dirs w i) (h : DecksKept w) :
    DecksKept (w.step dirs i).2 := by
  cases i with
  | request q env r => exact decksKept_request h q r hok
  | poll q => exact decksKept_poll h q
  | giveUp q => exact h.requester fun r hr => by cases hr
  | read q => exact h
  | plugin p act => exact decksKept_service h p hok

/-- Nobody reads or assembles a deck at first. -/
theorem decksKept_init (h : (netlistMachine dirs).init w) : DecksKept w := by
  obtain ⟨⟨events, hdesk⟩, hidle, hnone⟩ := h
  refine ⟨?_, ?_, ?_, ?_, ?_, ?_⟩
  · intro kind k req hget
    rw [hdesk] at hget
    cases kind <;> cases hget
  · intro p req hreq
    rw [hidle p] at hreq
    cases hreq
  · intro q r hr
    rw [hnone q] at hr
    cases hr
  · intro p
    rw [hidle p]
    trivial
  · intro p path hp
    rw [hidle p] at hp
    cases hp
  · intro q r path hr
    rw [hnone q] at hr
    cases hr

end Steps

section Examples

/-- All plugins share a directory. -/
def sampleDirs : ℕ → String := fun _ => "/tmp/vfp_nl"

/-- A request for the amplifier in a corner. -/
def sampleDeckRequest (corner : String) : DeckRequest := ⟨"lib", "ota", "schematic", corner⟩

/-- A requester asks for it. -/
def sampleAsk (q : ℕ) (uuid corner : String) : NetlistInput :=
  .request q { Tunnel.Env.sample with uuid := uuid } (sampleDeckRequest corner)

/-- What the plugin does up to the deck of the next request, and then reports. -/
def sampleService : List NetlistInput :=
  [.plugin 0 (.start (.opened true) true), .plugin 0 (.setup true), .plugin 0 .write, .plugin 0 (.finish true),
    .plugin 0 .check, .plugin 0 (.report .sample)]

/-- The tunnel starts, with nothing on the disk. -/
def sampleNetlistStart : NetlistWorld := ⟨Tunnel.sampleDesk, fun _ => none, fun _ => .idle, fun _ => none⟩

/-- One requester has asked, and a plugin has pulled its request. -/
def samplePulled : NetlistWorld :=
  (netlistMachine sampleDirs).last sampleNetlistStart [sampleAsk 0 "0123456789ab" "ss", .plugin 0 .pull]

/-- It has its deck. -/
def sampleServed : NetlistWorld := (netlistMachine sampleDirs).last samplePulled (sampleService ++ [.poll 0])

/-- Nobody else is at work then, and nobody has a deck to read. -/
theorem free_samplePulled (path : String) : samplePulled.Free 0 path := by
  constructor
  · intro p hp
    have hidle : samplePulled.plugins p = .idle := at_plugins_of_ne hp
    rw [hidle]
    rintro ⟨⟩
  · intro q r hr hawaits
    have hbefore : r.Awaits sampleNetlistStart.desk path := awaits_of_requested
      (exec_netlistRequest { Tunnel.Env.sample with uuid := "0123456789ab" } (sampleDeckRequest "ss") _).2 hawaits
    rcases hbefore with hpath | ⟨k, req, -, hget, -⟩
    · have hnew : Function.update sampleNetlistStart.requesters 0
          (some ⟨sampleDeckRequest "ss", .str "nlr_0123456789ab", none⟩) q = some r := hr
      by_cases hq : q = 0
      · subst hq
        rw [Function.update_self] at hnew
        obtain rfl := Option.some.inj hnew
        cases hpath
      · rw [Function.update_of_ne hq] at hnew
        cases hnew
    · cases hget

/-- A requester is served by a plugin. -/
theorem run_sampleServed : ∃ h, Run (netlistMachine sampleDirs) (DecksApart sampleDirs) h sampleServed := by
  have hstart : Run (netlistMachine sampleDirs) (DecksApart sampleDirs) [] sampleNetlistStart :=
    .init ⟨⟨.empty, rfl⟩, fun _ => rfl, fun _ => rfl⟩
  have hasked := hstart.step (i := sampleAsk 0 "0123456789ab" "ss") rfl
  have hpulled := hasked.step (i := NetlistInput.plugin 0 .pull) trivial
  change Run _ _ _ samplePulled at hpulled
  have hrest : ∀ i ∈ sampleService.tail ++ [.poll 0], ∀ w, DecksApart sampleDirs w i := by
    simp [sampleService, DecksApart]
  have hserved := hpulled.append_trace (sampleService ++ [.poll 0]) fun e he => by
    rcases List.mem_cons.mp he with rfl | he
    · exact fun _ _ _ _ _ => free_samplePulled _
    · exact hrest e.input (Machine.input_mem_of_trace he) e.before
  exact ⟨_, hserved⟩

/-- Two requesters ask for the amplifier in two corners; the first one knows its path when the plugin is done with
the second one. -/
def sampleTwoCorners : List NetlistInput :=
  [sampleAsk 0 "0123456789ab" "ss", sampleAsk 1 "ba9876543210" "ff", .plugin 0 .pull] ++ sampleService ++
    .poll 0 :: sampleService

end Examples

end VirtuosoFlow.Plugin
