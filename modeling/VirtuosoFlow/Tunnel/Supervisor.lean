import Mathlib.Logic.Function.Basic
import VirtuosoFlow.Base.Run

/-!
# The supervisor of a Virtuoso process

`serve_main` (`sim/virtuoso_daemon.py`) launches Virtuoso, waits until it prints the ready marker, and
launches another one whenever it dies. Readiness is one flag, which a thread for each launched
process sets and each start clears. The state file is written by the main thread only; the
processes, the threads that drain their output and the main thread take their steps in any order.
-/

namespace VirtuosoFlow.Tunnel

open Base

/-- A launched process and the lines it has written that were not drained yet, each with whether it
contains the marker. -/
structure Virtuoso where
  alive : Bool
  printed : Bool
  pipe : List Bool

/-- A process that was not launched yet. -/
def Virtuoso.none : Virtuoso := ⟨false, false, []⟩

/-- A process right after `subprocess.Popen`. -/
def Virtuoso.launched : Virtuoso := ⟨true, false, []⟩

/-- A line of the process. -/
def Virtuoso.print (marker : Bool) (p : Virtuoso) : Virtuoso :=
  ⟨p.alive, p.printed || marker, p.pipe ++ [marker]⟩

/-- The process dies; what it wrote can still be read. -/
def Virtuoso.exit (p : Virtuoso) : Virtuoso := ⟨false, p.printed, p.pipe⟩

/-- A thread that runs `_drain_stdout`; it reads from the process that `self._proc` names when the
thread gets to run. -/
inductive Drain where
  | absent
  | started
  | reading (n : ℕ)
  | returned
  deriving DecidableEq

/-- What a launch is for. -/
inductive Launch where
  | boot
  | restart
  deriving DecidableEq

/-- Where the main thread stands. -/
inductive Pc where
  /-- Before `_state("starting")`. -/
  | entry
  /-- At `d.ensure_up(wait=True)`. -/
  | boot
  /-- In `start()`, after `self._ready.clear()`. -/
  | launching (launch : Launch)
  /-- In `wait_ready()`. -/
  | waiting (launch : Launch)
  /-- Before the state of the first boot is written. -/
  | booted (ready : Bool)
  /-- At the top of the loop. -/
  | loop
  /-- Before the state of a restart is written. -/
  | restarted
  /-- Before `d.stop(timeout=3)`. -/
  | stopping
  /-- Before `_unlink_state()`. -/
  | unlinking
  | ended
  deriving DecidableEq

/-- `status` in the state file. -/
inductive DaemonStatus where
  | starting
  | ready
  | failed
  deriving DecidableEq

/-- What the state file says; processes are named by the number of their launch. An earlier
supervisor may have left a file behind. -/
inductive StateFile where
  | absent
  | earlier
  | unreadable
  | entry (status : DaemonStatus) (pid : Option ℕ)
  deriving DecidableEq

/-- What becomes of `state_file().write_text`. -/
inductive Written where
  | whole
  | torn
  | refused

/-- The supervisor with its processes, its threads and its state file. -/
structure Supervisor where
  pc : Pc
  launches : ℕ
  procs : ℕ → Virtuoso
  drains : ℕ → Drain
  /-- `self._proc`. -/
  proc : Option ℕ
  /-- `self._ready`. -/
  ready : Bool
  file : StateFile

namespace Supervisor

/-- `is_alive()`. -/
def isAlive (s : Supervisor) : Bool :=
  match s.proc with
  | some n => (s.procs n).alive
  | none => false

/-- `_state(status, ready)`. -/
def writeState (status : DaemonStatus) (written : Written) (s : Supervisor) : Supervisor :=
  match written with
  | .whole => { s with file := .entry status s.proc }
  | .torn => { s with file := .unreadable }
  | .refused => s

/-- The status of the first boot: `"ready" if ready else "failed"`. -/
def bootStatus (ready : Bool) : DaemonStatus := if ready then .ready else .failed

/-- What the surroundings do in a step of the main thread. -/
structure Outcome where
  /-- `subprocess.Popen` launches the process. -/
  launched : Bool
  /-- The deadline of `wait_ready` is over. -/
  timedOut : Bool
  written : Written
  /-- `state_file().unlink()` removes the file. -/
  unlinked : Bool

/-- Whether `wait_ready()` returns. -/
def waitReturns (o : Outcome) (s : Supervisor) : Bool := s.ready || !s.isAlive || o.timedOut

/-- `start()` from `Popen` on. -/
def popen (launch : Launch) (o : Outcome) (s : Supervisor) : Supervisor :=
  if o.launched then
    { s with
      pc := .waiting launch
      launches := s.launches + 1
      procs := Function.update s.procs s.launches .launched
      drains := Function.update s.drains s.launches .started
      proc := some s.launches }
  -- the error leaves `serve_main`, from the loop through its `finally`
  else { s with proc := none, pc := if launch = .boot then .ended else .stopping }

/-- `stop()`. -/
def stop (s : Supervisor) : Supervisor :=
  { s with
    procs := match s.proc with
      | some n => Function.update s.procs n (s.procs n).exit
      | none => s.procs
    proc := none
    ready := false }

/-- A step of the main thread. -/
def mainStep (o : Outcome) (s : Supervisor) : Supervisor :=
  match s.pc with
  | .entry => { s.writeState .starting o.written with pc := .boot }
  | .boot => if s.isAlive then { s with pc := .waiting .boot }
    else { s with ready := false, pc := .launching .boot }
  | .launching launch => s.popen launch o
  | .waiting .boot => if s.waitReturns o then { s with pc := .booted s.ready } else s
  -- the answer of `wait_ready()` is not looked at
  | .waiting .restart => if s.waitReturns o then { s with pc := .restarted } else s
  | .booted ready =>
    { s.writeState (bootStatus ready) o.written with pc := if ready then .loop else .stopping }
  | .loop => if s.isAlive then s else { s with ready := false, pc := .launching .restart }
  | .restarted => { s.writeState .ready o.written with pc := .loop }
  | .stopping => { s.stop with pc := .unlinking }
  | .unlinking => { s with file := if o.unlinked then .absent else s.file, pc := .ended }
  | .ended => s

/-- `KeyboardInterrupt` in the main thread, which may have begun to write the file. -/
def interrupt (written : Written) (s : Supervisor) : Supervisor :=
  match s.pc with
  | .entry => { s.writeState .starting written with pc := .ended }
  | .booted ready => { s.writeState (bootStatus ready) written with pc := .ended }
  | .restarted => { s.writeState .ready written with pc := .stopping }
  | .loop | .launching .restart | .waiting .restart => { s with pc := .stopping }
  | .boot | .launching .boot | .waiting .boot | .stopping | .unlinking | .ended => { s with pc := .ended }

/-- A line of a process. -/
def print (n : ℕ) (marker : Bool) (s : Supervisor) : Supervisor :=
  if (s.procs n).alive then { s with procs := Function.update s.procs n ((s.procs n).print marker) }
  else s

/-- A process dies. -/
def exit (n : ℕ) (s : Supervisor) : Supervisor :=
  { s with procs := Function.update s.procs n (s.procs n).exit }

/-- A thread gets to run: `proc = self._proc`. -/
def attach (t : ℕ) (s : Supervisor) : Supervisor :=
  if s.drains t = .started then
    { s with drains := Function.update s.drains t (match s.proc with
      | some n => .reading n
      | none => .returned) }
  else s

/-- A thread handles the next line of its process. -/
def drain (t : ℕ) (s : Supervisor) : Supervisor :=
  match s.drains t with
  | .reading n =>
    match (s.procs n).pipe with
    | marker :: rest =>
      { s with
        procs := Function.update s.procs n ⟨(s.procs n).alive, (s.procs n).printed, rest⟩
        ready := s.ready || marker }
    | [] => s
  | _ => s

end Supervisor

/-- What can happen next. -/
inductive SupervisorInput where
  | main (o : Supervisor.Outcome)
  | interrupt (written : Written)
  | print (n : ℕ) (marker : Bool)
  | exit (n : ℕ)
  | attach (t : ℕ)
  | drain (t : ℕ)

/-- `serve_main` with the processes it launches. -/
def supervisor : Machine Supervisor SupervisorInput Unit where
  init s := s.pc = .entry ∧ s.launches = 0 ∧ s.procs = (fun _ => .none) ∧ s.drains = (fun _ => .absent) ∧
    s.proc = none ∧ s.ready = false ∧ (s.file = .absent ∨ s.file = .earlier)
  step
    | .main o, s => ((), s.mainStep o)
    | .interrupt written, s => ((), s.interrupt written)
    | .print n marker, s => ((), s.print n marker)
    | .exit n, s => ((), s.exit n)
    | .attach t, s => ((), s.attach t)
    | .drain t, s => ((), s.drain t)

namespace Supervisor

/-- The current process has printed the marker. -/
def Announced (s : Supervisor) : Prop := ∃ n, s.proc = some n ∧ (s.procs n).printed = true

/-- When the state file says `ready`, the process whose pid it records has printed the marker. -/
def Truthful (s : Supervisor) : Prop :=
  ∀ pid, s.file = .entry .ready pid → ∃ n, pid = some n ∧ (s.procs n).printed = true

/-- The wait of a restart ends with the flag set, and while a restart is under way no thread hands over
the marker of an earlier process, unless the new one has printed it. -/
def Meets (s : Supervisor) : SupervisorInput → Prop
  | .main o => s.pc = .waiting .restart → s.waitReturns o = true → s.ready = true
  | .drain t => ∀ n, s.drains t = .reading n → (s.procs n).pipe.head? = some true →
      s.pc ≠ .launching .restart ∧ (s.pc = .waiting .restart → s.proc = some n ∨ s.Announced)
  | _ => True

/-- What the flag means where the main thread stands. -/
def AtPc (s : Supervisor) : Prop :=
  match s.pc with
  | .entry | .boot => s.launches = 0 ∧ s.proc = none
  | .launching .boot => s.launches = 0 ∧ s.ready = false
  | .launching .restart => s.ready = false
  | .waiting .boot => s.launches = 1 ∧ s.proc = some 0 ∧ (s.ready = true → s.Announced)
  | .waiting .restart => s.ready = true → s.Announced
  | .booted ready => ready = true → s.Announced
  | .restarted => s.Announced
  | _ => True

/-- What holds whatever happens. -/
structure Sound (s : Supervisor) : Prop where
  fresh : ∀ n, s.launches ≤ n → s.procs n = .none ∧ s.drains n = .absent
  current : ∀ n, s.proc = some n → n < s.launches
  attached : ∀ t n, s.drains t = .reading n → n < s.launches
  piped : ∀ n, true ∈ (s.procs n).pipe → (s.procs n).printed = true
  atPc : s.AtPc
  truthful : s.Truthful

/-- A step besides the main thread: no process forgets that it has printed. -/
structure Aside (s s' : Supervisor) : Prop where
  pc : s'.pc = s.pc
  launches : s'.launches = s.launches
  proc : s'.proc = s.proc
  file : s'.file = s.file
  printed : ∀ n, (s.procs n).printed = true → (s'.procs n).printed = true

section Aside

variable {s s' : Supervisor}

/-- What goes on aside does not take an announcement back. -/
theorem Aside.announced (h : Aside s s') (hann : s.Announced) : s'.Announced := by
  obtain ⟨n, hproc, hprinted⟩ := hann
  exact ⟨n, h.proc.trans hproc, h.printed n hprinted⟩

/-- It leaves the state file truthful. -/
theorem Aside.truthful (h : Aside s s') (htruthful : s.Truthful) : s'.Truthful := by
  intro pid hfile
  obtain ⟨n, rfl, hprinted⟩ := htruthful pid (h.file ▸ hfile)
  exact ⟨n, rfl, h.printed n hprinted⟩

/-- It leaves what the flag means. -/
theorem Aside.atPc (h : Aside s s') (hready : s'.ready = s.ready) (hpc : s.AtPc) : s'.AtPc := by
  unfold AtPc at hpc ⊢
  rw [h.pc, h.launches, h.proc, hready]
  split at hpc
  · exact hpc
  · exact hpc
  · exact hpc
  · exact hpc
  · exact ⟨hpc.1, hpc.2.1, fun hset => h.announced (hpc.2.2 hset)⟩
  · exact fun hset => h.announced (hpc hset)
  · exact fun hset => h.announced (hpc hset)
  · exact h.announced hpc
  · trivial

/-- A step besides the main thread keeps what holds, if it does so for the pipes and the flag. -/
theorem Aside.sound (h : Aside s s') (hs : s.Sound)
    (hfresh : ∀ n, s.launches ≤ n → s'.procs n = .none ∧ s'.drains n = .absent)
    (hattached : ∀ t n, s'.drains t = .reading n → n < s.launches)
    (hpiped : ∀ n, true ∈ (s'.procs n).pipe → (s'.procs n).printed = true) (hpc : s'.AtPc) : s'.Sound where
  fresh n hn := hfresh n (h.launches ▸ hn)
  current n hn := by
    rw [h.launches]
    exact hs.current n (h.proc ▸ hn)
  attached t n hn := by
    rw [h.launches]
    exact hattached t n hn
  piped := hpiped
  atPc := hpc
  truthful := h.truthful hs.truthful

end Aside

section Steps

variable {s : Supervisor} {n t : ℕ}

/-- One process changes, and does not forget that it has printed. -/
theorem aside_update {p : Virtuoso} {ready : Bool} (hprinted : (s.procs n).printed = true → p.printed = true) :
    Aside s { s with procs := Function.update s.procs n p, ready := ready } := by
  refine ⟨rfl, rfl, rfl, rfl, fun m hm => ?_⟩
  by_cases hmn : m = n
  · subst hmn
    simpa using hprinted hm
  · simpa [Function.update_of_ne hmn] using hm

/-- A process that is alive was launched. -/
theorem Sound.not_fresh_of_alive (h : s.Sound) (halive : (s.procs n).alive = true) : n < s.launches := by
  by_contra hle
  rw [(h.fresh n (by omega)).1] at halive
  cases halive

/-- A line of a process keeps all sound. -/
theorem sound_print (h : s.Sound) (marker : Bool) : (s.print n marker).Sound := by
  unfold print
  by_cases halive : (s.procs n).alive = true
  · rw [if_pos halive]
    have hlt := h.not_fresh_of_alive halive
    have haside : Aside s { s with procs := Function.update s.procs n ((s.procs n).print marker) } :=
      aside_update fun hm => by simp [Virtuoso.print, hm]
    refine haside.sound h ?_ h.attached ?_ (haside.atPc rfl h.atPc)
    · intro m hm
      have hne : m ≠ n := by omega
      simpa [Function.update_of_ne hne] using h.fresh m hm
    · intro m hm
      by_cases hmn : m = n
      · subst hmn
        have hline : true ∈ (s.procs m).pipe ∨ marker = true := by simpa [Virtuoso.print] using hm
        rcases hline with hold | hnew
        · simp [Virtuoso.print, h.piped m hold]
        · simp [Virtuoso.print, hnew]
      · simp only [Function.update_of_ne hmn] at hm ⊢
        exact h.piped m hm
  · rw [if_neg halive]
    exact h

/-- So does the end of a process. -/
theorem sound_exit (h : s.Sound) : (s.exit n).Sound := by
  have haside : Aside s (s.exit n) := aside_update fun hm => hm
  refine haside.sound h ?_ h.attached ?_ (haside.atPc rfl h.atPc)
  · intro m hm
    have hnone := h.fresh m hm
    refine ⟨?_, hnone.2⟩
    by_cases hmn : m = n
    · subst hmn
      simp [exit, hnone.1, Virtuoso.exit, Virtuoso.none]
    · simpa [exit, Function.update_of_ne hmn] using hnone.1
  · intro m hm
    by_cases hmn : m = n
    · subst hmn
      have hpipe : true ∈ (s.procs m).pipe := by simpa [exit, Virtuoso.exit] using hm
      simpa [exit, Virtuoso.exit] using h.piped m hpipe
    · simp only [exit, Function.update_of_ne hmn] at hm ⊢
      exact h.piped m hm

/-- So does a thread that gets to run. -/
theorem sound_attach (h : s.Sound) : (s.attach t).Sound := by
  unfold attach
  by_cases hstarted : s.drains t = .started
  · rw [if_pos hstarted]
    have haside : Aside s { s with drains := Function.update s.drains t (match s.proc with
        | some n => .reading n
        | none => .returned) } := ⟨rfl, rfl, rfl, rfl, fun _ hm => hm⟩
    refine haside.sound h ?_ ?_ h.piped (haside.atPc rfl h.atPc)
    · intro m hm
      have hne : m ≠ t := by
        rintro rfl
        rw [(h.fresh m hm).2] at hstarted
        cases hstarted
      simpa [Function.update_of_ne hne] using h.fresh m hm
    · intro u m hm
      by_cases hut : u = t
      · subst hut
        cases hproc : s.proc with
        | none => simp [hproc] at hm
        | some k =>
          obtain rfl : k = m := by simpa [hproc] using hm
          exact h.current k hproc
      · simp only [Function.update_of_ne hut] at hm
        exact h.attached u m hm
  · rw [if_neg hstarted]
    exact h

/-- The flag may be set where no launch is under way, or after the current process has printed. -/
theorem Aside.atPc_set {s' : Supervisor} (h : Aside s s') (hs : s.AtPc)
    (hlaunching : ∀ launch, s.pc ≠ .launching launch)
    (hwaiting : ∀ launch, s.pc = .waiting launch → s'.Announced) : s'.AtPc := by
  unfold AtPc at hs ⊢
  rw [h.pc, h.launches, h.proc]
  cases hpc : s.pc with
  | launching launch => exact absurd hpc (hlaunching launch)
  | waiting launch =>
    rw [hpc] at hs
    cases launch with
    | boot => exact ⟨hs.1, hs.2.1, fun _ => hwaiting _ hpc⟩
    | restart => exact fun _ => hwaiting _ hpc
  | entry | boot =>
    rw [hpc] at hs
    exact hs
  | booted ready =>
    rw [hpc] at hs
    exact fun hset => h.announced (hs hset)
  | restarted =>
    rw [hpc] at hs
    exact h.announced hs
  | loop | stopping | unlinking | ended => trivial

/-- So does a line that is handed over in time. -/
theorem sound_drain (h : s.Sound) (hmeets : s.Meets (.drain t)) : (s.drain t).Sound := by
  unfold drain
  cases hdrain : s.drains t with
  | absent | started | returned => exact h
  | reading n =>
    dsimp only
    cases hpipe : (s.procs n).pipe with
    | nil => exact h
    | cons marker rest =>
      dsimp only
      have hlt := h.attached t n hdrain
      have haside : Aside s { s with
          procs := Function.update s.procs n ⟨(s.procs n).alive, (s.procs n).printed, rest⟩,
          ready := s.ready || marker } := aside_update fun hm => hm
      refine haside.sound h ?_ h.attached ?_ ?_
      · intro m hm
        have hne : m ≠ n := by omega
        simpa [Function.update_of_ne hne] using h.fresh m hm
      · intro m hm
        by_cases hmn : m = n
        · subst hmn
          have hrest : true ∈ rest := by simpa using hm
          simpa using h.piped m (by simp [hpipe, hrest])
        · simp only [Function.update_of_ne hmn] at hm ⊢
          exact h.piped m hm
      · cases marker with
        | false => exact haside.atPc (Bool.or_false _) h.atPc
        | true =>
          have hprinted : (s.procs n).printed = true := h.piped n (by simp [hpipe])
          obtain ⟨hnot, hnew⟩ := hmeets n hdrain (by simp [hpipe])
          have hpc := h.atPc
          refine haside.atPc_set h.atPc ?_ ?_
          · rintro launch hlaunching
            cases launch with
            | restart => exact hnot hlaunching
            | boot =>
              unfold AtPc at hpc
              rw [hlaunching] at hpc
              omega
          · rintro launch hwaiting
            apply haside.announced
            cases launch with
            | restart =>
              rcases hnew hwaiting with hproc | hann
              · exact ⟨n, hproc, hprinted⟩
              · exact hann
            | boot =>
              unfold AtPc at hpc
              rw [hwaiting] at hpc
              obtain rfl : n = 0 := by omega
              exact ⟨0, hpc.2.1, hprinted⟩

end Steps

section MainThread

variable {s : Supervisor} {o : Outcome}

/-- A step of the main thread that launches and ends no process. -/
theorem Sound.move (h : s.Sound) (pc : Pc) (ready : Bool) (file : StateFile)
    (hpc : { s with pc := pc, ready := ready, file := file }.AtPc)
    (htruthful : { s with pc := pc, ready := ready, file := file }.Truthful) :
    { s with pc := pc, ready := ready, file := file }.Sound :=
  ⟨h.fresh, h.current, h.attached, h.piped, hpc, htruthful⟩

/-- Writing the state keeps the file truthful, unless it says `ready` of a process that has not printed
the marker. -/
theorem Sound.write (h : s.Sound) (status : DaemonStatus) (written : Written) (pc : Pc)
    (hready : status = .ready → s.Announced)
    (hpc : ∀ file, { s with pc := pc, file := file }.AtPc) :
    { s.writeState status written with pc := pc }.Sound := by
  cases written with
  | refused => exact h.move pc s.ready s.file (hpc _) h.truthful
  | torn =>
    refine h.move pc s.ready .unreadable (hpc _) ?_
    intro pid hfile
    cases hfile
  | whole =>
    refine h.move pc s.ready (.entry status s.proc) (hpc _) ?_
    intro pid hfile
    obtain ⟨hstatus, rfl⟩ := StateFile.entry.inj hfile
    exact hready hstatus

/-- So does a launch. -/
theorem sound_popen (h : s.Sound) {launch : Launch} (hpc : s.pc = .launching launch) :
    (s.popen launch o).Sound := by
  unfold popen
  have hat := h.atPc
  unfold AtPc at hat
  rw [hpc] at hat
  by_cases hlaunched : o.launched = true
  · rw [if_pos hlaunched]
    refine ⟨?_, ?_, ?_, ?_, ?_, ?_⟩
    · intro n hn
      have hle : s.launches ≤ n := by
        have hlt : s.launches + 1 ≤ n := hn
        omega
      have hne : n ≠ s.launches := by
        rintro rfl
        have hlt : s.launches + 1 ≤ s.launches := hn
        omega
      simpa [Function.update_of_ne hne] using h.fresh n hle
    · intro n hn
      obtain rfl : s.launches = n := Option.some.inj hn
      exact Nat.lt_succ_self _
    · intro t n hn
      by_cases ht : t = s.launches
      · subst ht
        simp at hn
      · simp only [Function.update_of_ne ht] at hn
        exact Nat.lt_succ_of_lt (h.attached t n hn)
    · intro n hn
      by_cases hnew : n = s.launches
      · subst hnew
        simp [Virtuoso.launched] at hn
      · simp only [Function.update_of_ne hnew] at hn ⊢
        exact h.piped n hn
    · cases launch with
      | boot =>
        have hfirst : s.launches = 0 := hat.1
        refine ⟨by simp [hfirst], by simp [hfirst], fun hset => ?_⟩
        exact absurd hset (by simp [hat.2])
      | restart => exact fun hset => absurd hset (by simp [show s.ready = false from hat])
    · intro pid hfile
      obtain ⟨n, rfl, hprinted⟩ := h.truthful pid hfile
      refine ⟨n, rfl, ?_⟩
      have hne : n ≠ s.launches := by
        rintro rfl
        rw [(h.fresh _ (Nat.le_refl _)).1] at hprinted
        cases hprinted
      simpa [Function.update_of_ne hne] using hprinted
  · rw [if_neg hlaunched]
    refine ⟨h.fresh, nofun, h.attached, h.piped, ?_, h.truthful⟩
    cases launch <;> trivial

/-- So does the way to the end. -/
theorem sound_stop (h : s.Sound) : { s.stop with pc := .unlinking }.Sound := by
  cases hproc : s.proc with
  | none =>
    simp only [stop, hproc]
    exact ⟨h.fresh, nofun, h.attached, h.piped, trivial, h.truthful⟩
  | some n =>
    have hexit := sound_exit (n := n) h
    simp only [stop, hproc]
    exact ⟨hexit.fresh, nofun, hexit.attached, hexit.piped, trivial, hexit.truthful⟩

/-- So does every step of the main thread. -/
theorem sound_mainStep (h : s.Sound) (hmeets : s.Meets (.main o)) : (s.mainStep o).Sound := by
  have hat := h.atPc
  unfold AtPc at hat
  unfold mainStep
  cases hpc : s.pc with
  | entry =>
    rw [hpc] at hat
    exact h.write .starting o.written .boot nofun fun _ => hat
  | boot =>
    rw [hpc] at hat
    have hdead : s.isAlive = false := by simp [isAlive, hat.2]
    simp only [hdead, Bool.false_eq_true, if_false]
    exact h.move (.launching .boot) false s.file ⟨hat.1, rfl⟩ h.truthful
  | launching launch => exact sound_popen h hpc
  | waiting launch =>
    rw [hpc] at hat
    cases launch with
    | boot =>
      dsimp only
      split
      · exact h.move (.booted s.ready) s.ready s.file hat.2.2 h.truthful
      · exact h
    | restart =>
      dsimp only
      split
      · rename_i hreturns
        exact h.move .restarted s.ready s.file (hat (hmeets hpc hreturns)) h.truthful
      · exact h
  | booted ready =>
    rw [hpc] at hat
    refine h.write (bootStatus ready) o.written _ ?_ ?_
    · intro hstatus
      apply hat
      cases ready with
      | true => rfl
      | false => cases hstatus
    · intro file
      cases ready <;> trivial
  | loop =>
    dsimp only
    split
    · exact h
    · exact h.move (.launching .restart) false s.file rfl h.truthful
  | restarted =>
    rw [hpc] at hat
    exact h.write .ready o.written .loop (fun _ => hat) fun _ => trivial
  | stopping => exact sound_stop h
  | unlinking =>
    refine h.move .ended s.ready (if o.unlinked then .absent else s.file) trivial ?_
    intro pid hfile
    cases hunlinked : o.unlinked with
    | true => simp [hunlinked] at hfile
    | false => exact h.truthful pid (by simpa [hunlinked] using hfile)
  | ended => exact h

/-- So does an interrupt. -/
theorem sound_interrupt (h : s.Sound) (written : Written) : (s.interrupt written).Sound := by
  have hat := h.atPc
  unfold AtPc at hat
  unfold interrupt
  cases hpc : s.pc with
  | entry => exact h.write .starting written .ended nofun fun _ => trivial
  | booted ready =>
    rw [hpc] at hat
    refine h.write (bootStatus ready) written .ended ?_ fun _ => trivial
    intro hstatus
    apply hat
    cases ready with
    | true => rfl
    | false => cases hstatus
  | restarted =>
    rw [hpc] at hat
    exact h.write .ready written .stopping (fun _ => hat) fun _ => trivial
  | launching launch | waiting launch =>
    cases launch
    · exact h.move .ended s.ready s.file trivial h.truthful
    · exact h.move .stopping s.ready s.file trivial h.truthful
  | loop => exact h.move .stopping s.ready s.file trivial h.truthful
  | boot | stopping | unlinking | ended => exact h.move .ended s.ready s.file trivial h.truthful

end MainThread

/-- A supervisor that has not begun is sound. -/
theorem sound_init {s : Supervisor} (h : supervisor.init s) : s.Sound := by
  obtain ⟨hpc, hlaunches, hprocs, hdrains, hproc, -, hfile⟩ := h
  refine ⟨?_, ?_, ?_, ?_, ?_, ?_⟩
  · intro n _
    rw [hprocs, hdrains]
    exact ⟨rfl, rfl⟩
  · intro n hn
    rw [hproc] at hn
    cases hn
  · intro t n hn
    rw [hdrains] at hn
    cases hn
  · intro n hn
    rw [hprocs] at hn
    cases hn
  · unfold AtPc
    rw [hpc]
    exact ⟨hlaunches, hproc⟩
  · intro pid hentry
    rcases hfile with hfile | hfile <;> rw [hfile] at hentry <;> cases hentry

/-- Every step that meets the condition keeps what holds. -/
theorem sound_step {s : Supervisor} {i : SupervisorInput} (hmeets : s.Meets i) (h : s.Sound) :
    (supervisor.step i s).2.Sound := by
  cases i with
  | main o => exact sound_mainStep h hmeets
  | interrupt written => exact sound_interrupt h written
  | print n marker => exact sound_print h marker
  | exit n => exact sound_exit h
  | attach t => exact sound_attach h
  | drain t => exact sound_drain h hmeets

/-- When no restart gives up waiting, and none is taken for ready by the marker of an earlier process,
the state file says `ready` only of processes that have printed the marker. -/
theorem state_file_truthful {h : List (Entry Supervisor SupervisorInput Unit)} {s : Supervisor}
    (hrun : Run supervisor Meets h s) : s.Truthful := by
  have hsound : s.Sound := by
    refine hrun.invariant (fun _ => sound_init) ?_
    intro s i hmeets hs
    exact sound_step hmeets hs
  exact hsound.truthful

/-- The supervisor before its first step. -/
def fresh : Supervisor := ⟨.entry, 0, fun _ => .none, fun _ => .absent, none, false, .absent⟩

/-- The main thread goes on: processes are launched, and files are written. -/
def goesOn : SupervisorInput := .main ⟨true, false, .whole, true⟩

/-- The deadline of a wait is over. -/
def givesUp : SupervisorInput := .main ⟨true, true, .whole, true⟩

/-- The first process is launched, and its output is drained. -/
def sampleLaunch : List SupervisorInput := [goesOn, goesOn, goesOn, .attach 0]

/-- It prints the marker, and the state file says `ready`. -/
def sampleBoot : List SupervisorInput := sampleLaunch ++ [.print 0 true, .drain 0, goesOn, goesOn]

/-- A first boot that nothing goes wrong in. -/
theorem run_sampleBoot : ∃ h, Run supervisor Meets h (supervisor.last fresh sampleBoot) := by
  have hstart : Run supervisor Meets [] fresh := .init ⟨rfl, rfl, rfl, rfl, rfl, rfl, .inl rfl⟩
  have hlaunch : Run supervisor Meets _ (supervisor.last fresh sampleLaunch) :=
    .step (.step (.step (.step hstart nofun) nofun) nofun) trivial
  have hprinted : Run supervisor Meets _ (supervisor.last fresh (sampleLaunch ++ [.print 0 true])) :=
    .step hlaunch trivial
  have hdrained : Run supervisor Meets _ (supervisor.last fresh (sampleLaunch ++ [.print 0 true, .drain 0])) :=
    .step hprinted fun _ _ _ => ⟨nofun, nofun⟩
  exact ⟨_, .step (.step hdrained nofun) nofun⟩

/-- The process dies, and the next one prints the marker in time. -/
def sampleRestart : List SupervisorInput :=
  sampleBoot ++ [.exit 0, goesOn, goesOn, .attach 1, .print 1 true, .drain 1, goesOn, goesOn]

/-- A restart that nothing goes wrong in. -/
theorem run_sampleRestart : ∃ h, Run supervisor Meets h (supervisor.last fresh sampleRestart) := by
  obtain ⟨h, hboot⟩ := run_sampleBoot
  have hlaunch : Run supervisor Meets _ (supervisor.last fresh (sampleBoot ++ [.exit 0, goesOn, goesOn])) :=
    .step (.step (.step hboot trivial) nofun) nofun
  have hprinted : Run supervisor Meets _
      (supervisor.last fresh (sampleBoot ++ [.exit 0, goesOn, goesOn, .attach 1, .print 1 true])) :=
    .step (.step hlaunch trivial) trivial
  have hown : Meets
      (supervisor.last fresh (sampleBoot ++ [.exit 0, goesOn, goesOn, .attach 1, .print 1 true])) (.drain 1) := by
    intro n hn _
    obtain rfl : 1 = n := Drain.reading.inj hn
    exact ⟨nofun, fun _ => .inl rfl⟩
  have hdrained : Run supervisor Meets _
      (supervisor.last fresh (sampleBoot ++ [.exit 0, goesOn, goesOn, .attach 1, .print 1 true, .drain 1])) :=
    .step hprinted hown
  exact ⟨_, .step (.step hdrained fun _ _ => rfl) nofun⟩

/-- After a restart the state file says that the new process is ready. -/
theorem state_file_truthful_sample : (supervisor.last fresh sampleRestart).Truthful ∧
    (supervisor.last fresh sampleRestart).file = .entry .ready (some 1) := by
  obtain ⟨h, hrun⟩ := run_sampleRestart
  exact ⟨state_file_truthful hrun, by rfl⟩

/-- The process dies, and the boot of the next one does not print the marker in time. -/
def sampleSilent : List SupervisorInput := sampleBoot ++ [.exit 0, goesOn, goesOn, givesUp, goesOn]

/-- A run on any inputs. -/
theorem run_of_inputs (inputs : List SupervisorInput) :
    Run supervisor (fun _ _ => True) (supervisor.trace fresh inputs) (supervisor.last fresh inputs) := by
  have hstart : Run supervisor (fun _ _ => True) [] fresh := .init ⟨rfl, rfl, rfl, rfl, rfl, rfl, .inl rfl⟩
  exact hstart.append_trace inputs fun _ _ => trivial

/-- The state file says that a process is ready which has not printed the marker. -/
theorem silent_restart_reported_ready :
    (∃ h, Run supervisor (fun _ _ => True) h (supervisor.last fresh sampleSilent)) ∧
      (supervisor.last fresh sampleSilent).file = .entry .ready (some 1) ∧
      ((supervisor.last fresh sampleSilent).procs 1).printed = false := by
  exact ⟨⟨_, run_of_inputs _⟩, by rfl, by rfl⟩

/-- The first process prints the marker twice, and the second one is handed over while its successor is
waited for. -/
def sampleLate : List SupervisorInput :=
  sampleLaunch ++ [.print 0 true, .print 0 true, .drain 0, goesOn, goesOn, .exit 0, goesOn, goesOn,
    .drain 0, goesOn, goesOn]

/-- In a step of the main thread no restart gives up waiting. -/
def flagAwaited (e : Entry Supervisor SupervisorInput Unit) : Bool :=
  match e.input with
  | .main _ => !decide (e.before.pc = .waiting .restart) || e.before.ready
  | _ => true

/-- Every wait ends with the flag set, and still the file says that a silent process is ready. -/
theorem late_marker_reported_ready :
    (∀ e ∈ supervisor.trace fresh sampleLate, ∀ o, e.input = .main o → e.before.Meets (.main o)) ∧
      (supervisor.last fresh sampleLate).file = .entry .ready (some 1) ∧
      ((supervisor.last fresh sampleLate).procs 1).printed = false := by
  refine ⟨?_, by rfl, by rfl⟩
  intro e he o hinput hpc _
  have hall : (supervisor.trace fresh sampleLate).all flagAwaited = true := by rfl
  have hawaited := List.all_eq_true.mp hall e he
  simpa [flagAwaited, hinput, hpc] using hawaited

end Supervisor

end VirtuosoFlow.Tunnel
