import Mathlib.Data.List.Basic
import Mathlib.Logic.Function.Basic

/-!
# Files behind paths

A directory of paths, each of which names a file; a file stays what it is for those who have it open
while its path is removed or given to a new file. Several writers share such a directory. As long as no
two of them have a path open at the same time, each finds behind its path what it wrote itself.
-/

namespace Base

variable {α κ : Type}

/-- The contents after a chunk is written at an offset; an offset after the end is reached through
zeros. -/
def overwrite [Inhabited α] (old : List α) (offset : ℕ) (chunk : List α) : List α :=
  old.take offset ++ List.replicate (offset - old.length) default ++ chunk ++
    old.drop (offset + chunk.length)

/-- Writing at the end appends. -/
theorem overwrite_end [Inhabited α] (old chunk : List α) : overwrite old old.length chunk = old ++ chunk := by
  simp [overwrite]

/-- Paths without hard links, and the files they name. -/
structure Files (α : Type) where
  link : String → Option ℕ
  content : ℕ → List α
  /-- The number of the next new file. -/
  next : ℕ
  single : ∀ {p q : String} {n : ℕ}, link p = some n → link q = some n → p = q
  known : ∀ {p : String} {n : ℕ}, link p = some n → n < next

/-- A file that was opened for writing from its beginning, and what was written to it. -/
structure OutFile (α : Type) where
  path : String
  file : ℕ
  text : List α

/-- The next chunk was written. -/
def OutFile.append (chunk : List α) (o : OutFile α) : OutFile α := { o with text := o.text ++ chunk }

namespace Files

variable {f : Files α} {o o' : OutFile α} {path : String}

/-- The file that opening a path for writing gives: the one it names, or a new one. -/
def fileFor (f : Files α) (path : String) : ℕ := (f.link path).getD f.next

/-- The directory after a path was opened for writing, which empties its file. -/
def create (f : Files α) (path : String) : Files α where
  link := Function.update f.link path (some (f.fileFor path))
  content := Function.update f.content (f.fileFor path) []
  next := f.next + 1
  single {p q n} hp hq := by
    have hother : ∀ r, r ≠ path → f.link r ≠ some (f.fileFor path) := by
      intro r hr hlink
      unfold fileFor at hlink
      cases hnamed : f.link path with
      | none =>
        rw [hnamed] at hlink
        exact Nat.lt_irrefl _ (f.known hlink)
      | some m =>
        rw [hnamed] at hlink
        exact hr (f.single hlink hnamed)
    by_cases hppath : p = path <;> by_cases hqpath : q = path
    · exact hppath.trans hqpath.symm
    · subst hppath
      rw [Function.update_self] at hp
      rw [Function.update_of_ne hqpath, ← hp] at hq
      exact absurd hq (hother q hqpath)
    · subst hqpath
      rw [Function.update_self] at hq
      rw [Function.update_of_ne hppath, ← hq] at hp
      exact absurd hp (hother p hppath)
    · rw [Function.update_of_ne hppath] at hp
      rw [Function.update_of_ne hqpath] at hq
      exact f.single hp hq
  known {p n} hp := by
    by_cases hppath : p = path
    · subst hppath
      obtain rfl : f.fileFor p = n := by simpa using hp
      unfold fileFor
      cases hnamed : f.link p with
      | none => exact Nat.lt_succ_self _
      | some m => exact Nat.lt_succ_of_lt (f.known hnamed)
    · rw [Function.update_of_ne hppath] at hp
      exact Nat.lt_succ_of_lt (f.known hp)

/-- What the writer that opened a path has. -/
def opened (f : Files α) (path : String) : OutFile α := ⟨path, f.fileFor path, []⟩

/-- The directory after a writer wrote a chunk where it left off. -/
def write [Inhabited α] (f : Files α) (o : OutFile α) (chunk : List α) : Files α where
  link := f.link
  content := Function.update f.content o.file (overwrite (f.content o.file) o.text.length chunk)
  next := f.next
  single := f.single
  known := f.known

/-- The directory after a path was removed. -/
def unlink (f : Files α) (path : String) : Files α where
  link := Function.update f.link path none
  content := f.content
  next := f.next
  single {p q n} hp hq := by
    have hne : ∀ r, Function.update f.link path none r = some n → f.link r = some n := by
      intro r hr
      by_cases hrpath : r = path
      · subst hrpath
        simp at hr
      · rwa [Function.update_of_ne hrpath] at hr
    exact f.single (hne p hp) (hne q hq)
  known {p n} hp := by
    by_cases hppath : p = path
    · subst hppath
      simp at hp
    · rw [Function.update_of_ne hppath] at hp
      exact f.known hp

/-- A writer's path names the file it opened, and this has what it wrote. -/
structure Holds (f : Files α) (o : OutFile α) : Prop where
  link : f.link o.path = some o.file
  content : f.content o.file = o.text

/-- A file that was created holds what its handle has written: nothing. -/
theorem holds_create_self (f : Files α) (path : String) : (f.create path).Holds (f.opened path) where
  link := Function.update_self ..
  content := Function.update_self ..

/-- Another file may be created meanwhile. -/
theorem Holds.create (h : f.Holds o) (hne : o.path ≠ path) : (f.create path).Holds o := by
  have hlink : (f.create path).link o.path = some o.file :=
    (Function.update_of_ne hne ..).trans h.link
  have hfile : o.file ≠ f.fileFor path := by
    intro heq
    have hself : (f.create path).link path = some o.file := by
      rw [heq]
      exact Function.update_self ..
    exact hne ((f.create path).single hlink hself)
  exact ⟨hlink, (Function.update_of_ne hfile ..).trans h.content⟩

/-- A handle that writes has written that too. -/
theorem Holds.write_self [Inhabited α] (h : f.Holds o) (chunk : List α) :
    (f.write o chunk).Holds (o.append chunk) where
  link := h.link
  content := by
    have hcontent : (f.write o chunk).content o.file = overwrite o.text o.text.length chunk := by
      rw [← h.content]
      simp [Files.write, h.content]
    exact hcontent.trans (overwrite_end o.text chunk)

/-- Another handle may write to another file. -/
theorem Holds.write [Inhabited α] (h : f.Holds o) (h' : f.Holds o') (hne : o.path ≠ o'.path)
    (chunk : List α) : (f.write o' chunk).Holds o := by
  have hfile : o.file ≠ o'.file := fun heq => hne (f.single h.link (heq ▸ h'.link))
  exact ⟨h.link, (Function.update_of_ne hfile ..).trans h.content⟩

/-- Another file may be removed. -/
theorem Holds.unlink (h : f.Holds o) (hne : o.path ≠ path) : (f.unlink path).Holds o :=
  ⟨(Function.update_of_ne hne ..).trans h.link, h.content⟩

end Files

/-- Writers that have no path in common, each of which finds what it wrote. -/
structure Held (f : Files α) (own : κ → Option (OutFile α)) : Prop where
  holds : ∀ {k o}, own k = some o → f.Holds o
  apart : ∀ {k k' o o'}, own k = some o → own k' = some o' → o.path = o'.path → k = k'

namespace Held

variable [DecidableEq κ] {f : Files α} {own : κ → Option (OutFile α)} {k : κ} {o : OutFile α}
  {path : String}

/-- A writer opens a path that none of the others has. -/
theorem create (h : Held f own) (hfree : ∀ k' o, k' ≠ k → own k' = some o → o.path ≠ path) :
    Held (f.create path) (Function.update own k (some (f.opened path))) where
  holds {k' o} ho := by
    by_cases hk : k' = k
    · subst hk
      obtain rfl : f.opened path = o := by simpa using ho
      exact f.holds_create_self path
    · rw [Function.update_of_ne hk] at ho
      exact (h.holds ho).create (hfree k' o hk ho)
  apart {k₁ k₂ o₁ o₂} h₁ h₂ hpath := by
    by_cases hk₁ : k₁ = k <;> by_cases hk₂ : k₂ = k
    · exact hk₁.trans hk₂.symm
    · subst hk₁
      rw [Function.update_of_ne hk₂] at h₂
      obtain rfl : f.opened path = o₁ := by simpa using h₁
      exact absurd hpath.symm (hfree k₂ o₂ hk₂ h₂)
    · subst hk₂
      rw [Function.update_of_ne hk₁] at h₁
      obtain rfl : f.opened path = o₂ := by simpa using h₂
      exact absurd hpath (hfree k₁ o₁ hk₁ h₁)
    · rw [Function.update_of_ne hk₁] at h₁
      rw [Function.update_of_ne hk₂] at h₂
      exact h.apart h₁ h₂ hpath

/-- A writer writes on. -/
theorem write [Inhabited α] (h : Held f own) (hk : own k = some o) (chunk : List α) :
    Held (f.write o chunk) (Function.update own k (some (o.append chunk))) where
  holds {k' o'} ho := by
    by_cases hkk : k' = k
    · subst hkk
      obtain rfl : o.append chunk = o' := by simpa using ho
      exact (h.holds hk).write_self chunk
    · rw [Function.update_of_ne hkk] at ho
      exact (h.holds ho).write (h.holds hk) (fun hpath => hkk (h.apart ho hk hpath)) chunk
  apart {k₁ k₂ o₁ o₂} h₁ h₂ hpath := by
    have hsame : ∀ k' o', Function.update own k (some (o.append chunk)) k' = some o' →
        ∃ o'', own k' = some o'' ∧ o''.path = o'.path := by
      intro k' o' ho
      by_cases hkk : k' = k
      · subst hkk
        obtain rfl : o.append chunk = o' := by simpa using ho
        exact ⟨o, hk, rfl⟩
      · rw [Function.update_of_ne hkk] at ho
        exact ⟨o', ho, rfl⟩
    obtain ⟨o₁', h₁', hpath₁⟩ := hsame k₁ o₁ h₁
    obtain ⟨o₂', h₂', hpath₂⟩ := hsame k₂ o₂ h₂
    exact h.apart h₁' h₂' (hpath₁.trans (hpath.trans hpath₂.symm))

/-- A writer is done, and leaves its file there. -/
theorem release (h : Held f own) (k : κ) : Held f (Function.update own k none) where
  holds {k' o} ho := by
    by_cases hk : k' = k
    · subst hk
      simp at ho
    · rw [Function.update_of_ne hk] at ho
      exact h.holds ho
  apart {k₁ k₂ o₁ o₂} h₁ h₂ hpath := by
    have hne : ∀ k' o, Function.update own k none k' = some o → own k' = some o := by
      intro k' o ho
      by_cases hk : k' = k
      · subst hk
        simp at ho
      · rwa [Function.update_of_ne hk] at ho
    exact h.apart (hne k₁ o₁ h₁) (hne k₂ o₂ h₂) hpath

/-- A writer is done, and removes its path. -/
theorem unlink (h : Held f own) (hk : own k = some o) :
    Held (f.unlink o.path) (Function.update own k none) where
  holds {k' o'} ho := by
    by_cases hkk : k' = k
    · subst hkk
      simp at ho
    · rw [Function.update_of_ne hkk] at ho
      exact (h.holds ho).unlink fun hpath => hkk (h.apart ho hk hpath)
  apart := (h.release k).apart

end Held

end Base
