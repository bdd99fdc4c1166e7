import VirtuosoFlow.Tunnel.FiledRequests

/-!
# What a restart brings back

Over a run of requests and restarts, the records whose requests were answered with success are those that a new
process loads, with the contents that the old process holds, as long as each of them has a file of its own and
nothing raises once a record or a mark is stored.
-/

namespace VirtuosoFlow.Tunnel

open Base Base.Posix JsonText

/-- Requests that are values over a working disk, and restarts that list what is there. -/
def Ordinary (fmt : FloatFormat) (home : Place) (takes : String → Bool) (s : Home) : HomeInput → Prop
  | .request env _ params => TakesFiles takes env ∧ Clock fmt env ∧ WellFormed fmt (.obj params)
  | .restart names others =>
    (∀ family : Family, Globs s.disk (family.dir home) (names family)) ∧ SessionValues fmt others.registry

/-- The steps that keep the files with the records. -/
def KeepsFiles (fmt : FloatFormat) (home : Place) (takes : String → Bool) (s : Home) (i : HomeInput) : Prop :=
  Ordinary fmt home takes s i ∧
    ∀ env method params, i = .request env method params → Restorable home takes env method params s.tunnel

/-- A new process has just the accepted records, with the contents that the old one holds. -/
def RestoresAccepted (fmt : FloatFormat) (home : Place) (h : List (Entry Home HomeInput (Except PyExc Json)))
    (s : Home) : Prop :=
  ∀ names, (∀ family : Family, Globs s.disk (family.dir home) (names family)) → ∀ others,
    ∃ t, Home.reload fmt home names others s.disk = .ok t ∧
      (∀ (family : Family) k, Accepted family h k → ∃ r,
        (family.store s.tunnel).records.get? k = some r ∧ (family.store t).records.get? k = some r) ∧
      ∀ (family : Family) k r, (family.store t).records.get? k = some r → Accepted family h k

/-- In every state of a run the files go with the records, and the accepted ones are those whose ids can be
joined. -/
structure Intact (fmt : FloatFormat) (home : Place) (takes : String → Bool)
    (h : List (Entry Home HomeInput (Except PyExc Json))) (s : Home) : Prop where
  orderly : ∀ family : Family, Orderly fmt takes family.field (family.dir home) (family.store s.tunnel).records
  onDisk : ∀ family : Family, OnDisk fmt (family.dir home) s.disk (family.store s.tunnel).records
  accepted : ∀ (family : Family) k, Accepted family h k ↔
    Joinable k ∧ ∃ r, (family.store s.tunnel).records.get? k = some r
  sessions : SessionValues fmt s.tunnel.registry

section Runs

variable {fmt : FloatFormat} {home : Place} {takes : String → Bool} {env : Env} {params : Obj} {method : Method}
  {h : List (Entry Home HomeInput (Except PyExc Json))} {s : Home} {t t' : Tunnel} {disk : Disk}

/-- What one more step accepts. -/
theorem accepted_append {family : Family} {e : Entry Home HomeInput (Except PyExc Json)} {k : Key} :
    Accepted family (h ++ [e]) k ↔ Accepted family h k ∨
      ∃ env params, e.input = .request env family.create params ∧ Answers family e.output k := by
  constructor
  · rintro ⟨e', he', env, params, answer, r, hinput, houtput, hr, hkey⟩
    rcases List.mem_append.mp he' with hmem | hlast
    · exact .inl ⟨e', hmem, env, params, answer, r, hinput, houtput, hr, hkey⟩
    · obtain rfl := List.mem_singleton.mp hlast
      exact .inr ⟨env, params, hinput, answer, r, houtput, hr, hkey⟩
  · rintro (⟨e', he', hrest⟩ | ⟨env, params, hinput, answer, r, houtput, hr, hkey⟩)
    · exact ⟨e', List.mem_append_left _ he', hrest⟩
    · exact ⟨e, List.mem_append_right _ (List.mem_singleton_self e), env, params, answer, r, hinput, houtput, hr,
        hkey⟩

/-- The files that a request writes keep all three directories as they should be: each lies in its own. -/
theorem onDisk_flush
    (hfiled : ∀ family : Family,
      StaysFiled fmt takes family.field (family.dir home) (family.store t) (family.store t'))
    (horderly : ∀ family : Family, Orderly fmt takes family.field (family.dir home) (family.store t).records)
    (hdisk : ∀ family : Family, OnDisk fmt (family.dir home) disk (family.store t).records) (family : Family) :
    OnDisk fmt (family.dir home) (Home.flush fmt home t t' disk) (family.store t').records := by
  have hwrites : ∀ family : Family, InDir (family.dir home) (newWrites (family.store t) (family.store t')) ∧
      ∀ disk, OnDisk fmt (family.dir home) disk (family.store t).records →
        OnDisk fmt (family.dir home)
          (writeFiles fmt (family.dir home) (newWrites (family.store t) (family.store t')) disk)
          (family.store t').records := by
    intro family
    obtain ⟨-, writes, heq, hin, hwritten⟩ := hfiled family (horderly family)
    have hnew : newWrites (family.store t) (family.store t') = writes := by
      rw [newWrites, heq, List.drop_left]
    rw [hnew]
    exact ⟨hin, hwritten⟩
  have hother : ∀ family family' : Family, family' ≠ family → ∀ disk records,
      OnDisk fmt (family'.dir home) disk records → OnDisk fmt (family'.dir home)
        (writeFiles fmt (family.dir home) (newWrites (family.store t) (family.store t')) disk) records :=
    fun _ _ hne _ _ h => h.congr fun n => writeFiles_other (hwrites _).1 (fun heq => hne (dir_injective heq)) n
  unfold Home.flush
  cases family with
  | proposals =>
    refine hother .jobs _ (by decide) _ _ ((hwrites .proposals).2 _ ?_)
    exact hother .transactions _ (by decide) _ _ (hdisk .proposals)
  | transactions =>
    refine hother .jobs _ (by decide) _ _ (hother .proposals _ (by decide) _ _ ?_)
    exact (hwrites .transactions).2 _ (hdisk .transactions)
  | jobs =>
    refine (hwrites .jobs).2 _ (hother .proposals _ (by decide) _ _ ?_)
    exact hother .transactions _ (by decide) _ _ (hdisk .jobs)

/-- What a new process loads. -/
theorem reload_eq (horderly : ∀ family : Family,
      Orderly fmt takes family.field (family.dir home) (family.store t).records)
    (hdisk : ∀ family : Family, OnDisk fmt (family.dir home) disk (family.store t).records)
    {names : Family → List (List Char)} (hnames : ∀ family : Family, Globs disk (family.dir home) (names family))
    (others : Tunnel) : ∃ t', Home.reload fmt home names others disk = .ok t' ∧ t'.registry = others.registry ∧
      ∀ (family : Family) k r, (family.store t').records.get? k = some r ↔
        (family.store t).records.get? k = some r ∧ (fileOf (family.dir home) k).isSome = true := by
  have hload := fun family : Family =>
    loadStore_filedUnder ((horderly family).filedUnder (hdisk family)) (hnames family)
  obtain ⟨proposals, hproposals, hfoundP⟩ := hload .proposals
  obtain ⟨transactions, htransactions, hfoundT⟩ := hload .transactions
  obtain ⟨jobs, hjobs, hfoundJ⟩ := hload .jobs
  refine ⟨{ others with
    proposals := ⟨proposals, []⟩, transactions := ⟨transactions, []⟩, jobs := ⟨jobs, []⟩ }, ?_, rfl, fun family => ?_⟩
  · simp only [Home.reload, hproposals, htransactions, hjobs, bind, Except.bind, pure, Except.pure]
  · cases family with
    | proposals => exact hfoundP
    | transactions => exact hfoundT
    | jobs => exact hfoundJ

/-- A process that loads the files that are there holds what the old one held under a name. -/
theorem Intact.restart (hi : Intact fmt home takes h s) {names : Family → List (List Char)} {others : Tunnel}
    (hnames : ∀ family : Family, Globs s.disk (family.dir home) (names family))
    (hothers : SessionValues fmt others.registry) :
    Intact fmt home takes (h ++ [(homeMachine fmt home).fire s (.restart names others)])
      ((homeMachine fmt home).step (.restart names others) s).2 := by
  obtain ⟨t, hreload, hregistry, hloaded⟩ := reload_eq hi.orderly hi.onDisk hnames others
  have hstep : (homeMachine fmt home).step (.restart names others) s = (.ok .null, ⟨t, s.disk⟩) := by
    show Home.step fmt home (.restart names others) s = _
    rw [Home.step, hreload]
  rw [hstep]
  have hkept : ∀ (family : Family) k r, (family.store t).records.get? k = some r →
      (family.store s.tunnel).records.get? k = some r := fun family k r hr => ((hloaded family k r).mp hr).1
  refine ⟨fun family => ⟨?_, ?_, ?_⟩, fun family => ⟨?_, ?_⟩, fun family k => ?_, ?_⟩
  · exact fun k r hr => (hi.orderly family).keyed k r (hkept family k r hr)
  · exact fun k r hr => (hi.orderly family).file k r (hkept family k r hr)
  · exact fun k k' r r' n hr hr' =>
      (hi.orderly family).apart k k' r r' n (hkept family k r hr) (hkept family k' r' hr')
  · exact fun k r n hr => (hi.onDisk family).file k r n (hkept family k r hr)
  · intro n text hjson htext
    obtain ⟨k, r, hr, hn⟩ := (hi.onDisk family).only n text hjson htext
    exact ⟨k, r, (hloaded family k r).mpr ⟨hr, by rw [hn]; rfl⟩, hn⟩
  · rw [accepted_append, hi.accepted]
    constructor
    · rintro (⟨hk, r, hr⟩ | ⟨env, params, hinput, -⟩)
      · exact ⟨hk, r, (hloaded family k r).mpr ⟨hr, ((hi.orderly family).file k r hr hk).1⟩⟩
      · cases hinput
    · rintro ⟨hk, r, hr⟩
      exact .inl ⟨hk, r, hkept family k r hr⟩
  · show SessionValues fmt t.registry
    rw [hregistry]
    exact hothers

/-- A request keeps the run intact under its conditions. -/
theorem Intact.request (hi : Intact fmt home takes h s) (htakes : TakesFiles takes env) (hclock : Clock fmt env)
    (hparams : WellFormed fmt (.obj params)) (hok : Restorable home takes env method params s.tunnel) :
    Intact fmt home takes (h ++ [(homeMachine fmt home).fire s (.request env method params)])
      ((homeMachine fmt home).step (.request env method params) s).2 := by
  have hfiled : ∀ family : Family, StaysFiled fmt takes family.field (family.dir home)
      (family.store s.tunnel) (family.store ((handle env method params).exec s.tunnel).2) :=
    handle_filed htakes hclock hparams hi.sessions hok
  refine ⟨fun family => (hfiled family (hi.orderly family)).1, fun family => ?_, fun family k => ?_, ?_⟩
  · exact onDisk_flush hfiled hi.orderly hi.onDisk family
  · rw [accepted_append, hi.accepted]
    show _ ↔ Joinable k ∧ ∃ r, (family.store ((handle env method params).exec s.tunnel).2).records.get? k = some r
    by_cases hcreate : method = family.create
    · subst hcreate
      obtain ⟨hjoinable, hstored⟩ := create_stored htakes hclock hparams hi.sessions (hi.orderly family) hok k
      constructor
      · rintro (⟨hk, hr⟩ | ⟨env', params', hinput, hanswers⟩)
        · exact ⟨hk, (hstored hk).mpr (.inl hr)⟩
        · obtain ⟨rfl, -, rfl⟩ := HomeInput.request.inj hinput
          exact ⟨hjoinable hanswers, (hstored (hjoinable hanswers)).mpr (.inr hanswers)⟩
      · rintro ⟨hk, hr⟩
        rcases (hstored hk).mp hr with hr | hanswers
        · exact .inl ⟨hk, hr⟩
        · exact .inr ⟨env, params, rfl, hanswers⟩
    · rw [handle_stored hcreate]
      constructor
      · rintro (hr | ⟨env', params', hinput, -⟩)
        · exact hr
        · obtain ⟨-, rfl, -⟩ := HomeInput.request.inj hinput
          exact absurd rfl hcreate
      · exact .inl
  · exact handle_sessions htakes hclock hparams hi.sessions hok

/-- Every run keeps the files with the records. -/
theorem intact_of_run (hrun : Run (homeMachine fmt home) (KeepsFiles fmt home takes) h s) :
    Intact fmt home takes h s := by
  induction hrun with
  | @init s hs =>
    obtain ⟨hempty, hsessions⟩ := hs
    have hnone : ∀ (family : Family) k r, (family.store s.tunnel).records.get? k ≠ some r := by
      intro family k r hr
      rw [(hempty family).1] at hr
      cases hr
    refine ⟨fun family => ⟨?_, ?_, ?_⟩, fun family => ⟨?_, ?_⟩, fun family k => ?_, hsessions⟩
    · exact fun k r hr => absurd hr (hnone family k r)
    · exact fun k r hr => absurd hr (hnone family k r)
    · exact fun k k' r r' n hr => absurd hr (hnone family k r)
    · exact fun k r n hr => absurd hr (hnone family k r)
    · intro n text _ htext
      rw [(hempty family).2 n] at htext
      cases htext
    · constructor
      · rintro ⟨e, he, -⟩
        cases he
      · rintro ⟨-, r, hr⟩
        exact absurd hr (hnone family k r)
  | @step h s i _ hok ih =>
    cases i with
    | request env method params =>
      obtain ⟨htakes, hclock, hparams⟩ := hok.1
      exact ih.request htakes hclock hparams (hok.2 env method params rfl)
    | restart names others => exact ih.restart hok.1.1 hok.1.2

end Runs

/-- As long as what is stored under a name has a file of its own and nothing raises halfway, a new process has
just the records whose requests were answered with success, with the contents that the old process held. -/
theorem restores_accepted {fmt : FloatFormat} {home : Place} {takes : String → Bool}
    {h : List (Entry Home HomeInput (Except PyExc Json))} {s : Home}
    (hrun : Run (homeMachine fmt home) (KeepsFiles fmt home takes) h s) : RestoresAccepted fmt home h s := by
  have hi := intact_of_run hrun
  intro names hnames others
  obtain ⟨t, hreload, -, hloaded⟩ := reload_eq hi.orderly hi.onDisk hnames others
  refine ⟨t, hreload, fun family k haccepted => ?_, fun family k r hr => ?_⟩
  · obtain ⟨hk, r, hr⟩ := (hi.accepted family k).mp haccepted
    exact ⟨r, hr, (hloaded family k r).mpr ⟨hr, ((hi.orderly family).file k r hr hk).1⟩⟩
  · obtain ⟨hr, hfile⟩ := (hloaded family k r).mp hr
    obtain ⟨n, hn⟩ := Option.isSome_iff_exists.mp hfile
    exact (hi.accepted family k).mpr ⟨joinable_of_fileOf hn, r, hr⟩

/-- A home without records and without files. -/
def sampleHome : Home := ⟨Tunnel.fresh .empty, fun _ => none⟩

/-- The request that creates `p_1`. -/
def sampleCreate : HomeInput := .request .sample .proposalCreate [("proposal", .obj sampleProposal)]

/-- The daemon over a home named `vfp`. -/
def sampleHomes : Machine Home HomeInput (Except PyExc Json) := homeMachine .sample ["vfp".toList]

/-- A proposal is created and is there after a restart. -/
theorem restores_accepted_sample :
    RestoresAccepted .sample ["vfp".toList] (sampleHomes.trace sampleHome [sampleCreate])
      (sampleHomes.last sampleHome [sampleCreate]) ∧
    Accepted .proposals (sampleHomes.trace sampleHome [sampleCreate]) (.str "p_1") := by
  have hstart : Run sampleHomes (KeepsFiles .sample ["vfp".toList] fun _ => true) [] sampleHome :=
    .init ⟨fun family => by cases family <;> exact ⟨rfl, fun _ => rfl⟩, fun k r hr => by cases hr⟩
  have hparams : WellFormed FloatFormat.sample (.obj [("proposal", .obj sampleProposal)]) := by
    refine wellFormed_obj_iff.mpr ⟨by simp, ?_⟩
    simp only [List.forall_mem_cons, List.not_mem_nil, false_imp_iff, implies_true, and_true]
    refine wellFormed_obj_iff.mpr ⟨by simp [sampleProposal], ?_⟩
    simp only [sampleProposal, List.forall_mem_cons, List.not_mem_nil, false_imp_iff, implies_true, and_true]
    exact wellFormed_str _
  have hok : KeepsFiles .sample ["vfp".toList] (fun _ => true) sampleHome sampleCreate := by
    refine ⟨⟨⟨rfl, fun _ => rfl, rfl⟩, ⟨['0', '.', '0'], rfl⟩, hparams⟩, ?_⟩
    rintro env method params hinput
    obtain ⟨rfl, rfl, rfl⟩ := HomeInput.request.inj hinput
    refine ⟨fun family hcreate k r hstores _ => ?_, False.elim, fun hjobs => by cases hjobs⟩
    cases family with
    | transactions => cases hcreate
    | jobs => cases hcreate
    | proposals =>
      obtain ⟨data, hdata, -, rfl, hkey, -⟩ := hstores
      obtain rfl : sampleProposal = data := Json.obj.inj hdata
      obtain rfl : Key.str "p_1" = k := Option.some.inj hkey
      have hfile : fileOf (Family.proposals.dir ["vfp".toList]) (.str "p_1") = some "p_1.json".toList :=
        fileOf_eq_some.mpr ⟨"p_1", rfl, by decide, locate_plain _ (plain_id (by decide))⟩
      refine ⟨⟨⟨by rw [hfile]; rfl, fun _ _ => rfl⟩, fun k' r' n hr' => ?_⟩, rfl⟩
      cases hr'
  have hrun := hstart.append_trace [sampleCreate] fun e he => by
    obtain rfl := List.mem_singleton.mp he
    exact hok
  refine ⟨restores_accepted hrun, ?_⟩
  exact ⟨_, List.mem_singleton_self _, .sample, _, _, makeProposal .sample sampleProposal, rfl, rfl, rfl, rfl⟩

end VirtuosoFlow.Tunnel
