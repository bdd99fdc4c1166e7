import Mathlib.Data.List.Basic

/-!
# The words of a shell command line

A command line is cut into words, operators and the digits before a redirection by the rules of the
POSIX shell, one character after the other; quotes and backslashes come off while a word is read.
Where the text alone does not settle the words there is no answer: a quotation is left open, or an
expansion, a pattern or a here-document is asked for. Text between single quotes is one word as it
stands, and exactly the texts without a single quote survive being put between them.
-/

namespace Base.Shell

/-- What a command line consists of. -/
inductive Token where
  | word (text : List Char)
  | ioNumber (digits : List Char)
  | operator (text : List Char)
  deriving DecidableEq

/-- How the next character of a word is quoted. -/
inductive Quoting where
  | plain | single | double | escaped | doubleEscaped
  deriving DecidableEq

/-- Where the reading of a line stands. A word is bare as long as nothing in it was quoted. -/
inductive State where
  | gap
  | comment
  | operator (text : List Char)
  | operatorEscaped (text : List Char)
  | word (text : List Char) (bare : Bool) (quoting : Quoting)
  deriving DecidableEq

/-- Blanks part words. -/
def isBlank (c : Char) : Bool := c == ' ' || c == '\t'

/-- An operator begins with such a character. -/
def startsOperator (c : Char) : Bool := ['&', '|', ';', '<', '>', '(', ')', '\n'].contains c

/-- The operators of more than one character. -/
def longOperators : List (List Char) :=
  [['&', '&'], ['|', '|'], [';', ';'], ['<', '<'], ['>', '>'], ['<', '&'], ['>', '&'], ['<', '>'],
    ['<', '<', '-'], ['>', '|']]

/-- The characters that ask for an expansion or a pattern unless they are quoted. -/
def expands (c : Char) : Bool := ['$', '`', '*', '?', '['].contains c

/-- One more character of a word. -/
def readChar (text : List Char) (bare : Bool) : Quoting → Char → Option State
  | .plain, c =>
    if c = '\'' then some (.word text false .single)
    else if c = '"' then some (.word text false .double)
    else if c = '\\' then some (.word text bare .escaped)
    else if expands c then none
    else some (.word (text ++ [c]) bare .plain)
  | .single, c =>
    if c = '\'' then some (.word text bare .plain) else some (.word (text ++ [c]) bare .single)
  | .double, c =>
    if c = '"' then some (.word text bare .plain)
    else if c = '\\' then some (.word text bare .doubleEscaped)
    else if c = '$' || c = '`' then none
    else some (.word (text ++ [c]) bare .double)
  -- a backslash at the end of a line joins it with the next one
  | .escaped, c =>
    if c = '\n' then some (if bare && text.isEmpty then .gap else .word text bare .plain)
    else some (.word (text ++ [c]) false .plain)
  | .doubleEscaped, c =>
    if ['$', '`', '"', '\\'].contains c then some (.word (text ++ [c]) bare .double)
    else if c = '\n' then some (.word text bare .double)
    else some (.word (text ++ ['\\', c]) bare .double)

/-- The first character after a token. -/
def start (c : Char) : Option State :=
  if isBlank c then some .gap
  else if startsOperator c then some (.operator [c])
  else if c = '#' then some .comment
  else if c = '~' then none
  else readChar [] true .plain c

/-- A complete operator; the text after the start of a here-document is not made of words. -/
def closeOperator (text : List Char) : Option (List Token) :=
  if text = ['<', '<'] || text = ['<', '<', '-'] then none else some [.operator text]

/-- A complete word; bare digits right before a redirection number what is redirected. -/
def closeWord (text : List Char) (bare : Bool) (next : Char) : Token :=
  if bare && (next == '<' || next == '>') && text.all Char.isDigit then .ioNumber text else .word text

/-- Read one character: the tokens it completes, and where the reading stands then. -/
def step : State → Char → Option (List Token × State)
  | .gap, c => (start c).map fun s => ([], s)
  | .comment, c => if c = '\n' then (start c).map fun s => ([], s) else some ([], .comment)
  | .operator text, c =>
    if longOperators.contains (text ++ [c]) then some ([], .operator (text ++ [c]))
    else if c = '\\' then some ([], .operatorEscaped text)
    else (closeOperator text).bind fun out => (start c).map fun s => (out, s)
  | .operatorEscaped text, c =>
    if c = '\n' then some ([], .operator text)
    else (closeOperator text).map fun out => (out, .word [c] false .plain)
  | .word text bare quoting, c =>
    if quoting = .plain ∧ (isBlank c || startsOperator c) = true then
      (start c).map fun s => ([closeWord text bare c], s)
    else (readChar text bare quoting c).map fun s => ([], s)

/-- The tokens that the end of the line completes. -/
def finish : State → Option (List Token)
  | .gap => some []
  | .comment => some []
  | .operator text => closeOperator text
  | .word text _ .plain => some [.word text]
  | _ => none

/-- Read a text: the tokens it completes, and where the reading stands then. -/
def feed (s : State) : List Char → Option (List Token × State)
  | [] => some ([], s)
  | c :: rest => (step s c).bind fun out => (feed out.2 rest).map fun more => (out.1 ++ more.1, more.2)

/-- The tokens of the rest of a line. -/
def run (s : State) (text : List Char) : Option (List Token) :=
  (feed s text).bind fun out => (finish out.2).map fun last => out.1 ++ last

/-- The tokens of a command line. -/
def tokens (line : List Char) : Option (List Token) := run .gap line

section Runs

variable {s s' : State} {text rest w : List Char} {c : Char} {toks out : List Token}

/-- A text is fed one part after the other. -/
theorem feed_append (s : State) (first rest : List Char) :
    feed s (first ++ rest) =
      (feed s first).bind fun out => (feed out.2 rest).map fun more => (out.1 ++ more.1, more.2) := by
  induction first generalizing s with
  | nil => cases h : feed s rest <;> simp [feed, h]
  | cons c first ih =>
    rw [List.cons_append, feed, feed]
    cases step s c with
    | none => rfl
    | some out =>
      simp only [Option.bind_some, ih]
      cases feed out.2 first with
      | none => rfl
      | some more =>
        simp only [Option.bind_some, Option.map_some]
        cases feed more.2 rest with
        | none => rfl
        | some last => simp

/-- A line is read part by part. -/
theorem run_append (h : feed s text = some (out, s')) (rest : List Char) :
    run s (text ++ rest) = (run s' rest).map fun toks => out ++ toks := by
  unfold run
  rw [feed_append, h]
  cases hrest : feed s' rest with
  | none => simp [hrest]
  | some more => cases hfinish : finish more.2 <;> simp [hrest, hfinish]

/-- What the first part gives is followed by what the rest gives. -/
theorem run_append_iff (h : feed s text = some (out, s')) :
    run s (text ++ rest) = some (out ++ toks) ↔ run s' rest = some toks := by
  rw [run_append h]
  cases run s' rest with
  | none => simp
  | some more => simp

/-- A line is read character by character. -/
theorem run_cons (s : State) (c : Char) (rest : List Char) :
    run s (c :: rest) = (step s c).bind fun out => (run out.2 rest).map fun toks => out.1 ++ toks := by
  unfold run
  rw [feed]
  cases step s c with
  | none => rfl
  | some out =>
    simp only [Option.bind_some]
    cases feed out.2 rest with
    | none => rfl
    | some more => cases hfinish : finish more.2 <;> simp [hfinish]

/-- A blank completes a word. -/
theorem run_blank (w : List Char) (bare : Bool) (rest : List Char) :
    run (.word w bare .plain) (' ' :: rest) = (run .gap rest).map fun toks => .word w :: toks := by
  have hclose : closeWord w bare ' ' = .word w := by
    simp [closeWord]
  have hstep : step (.word w bare .plain) ' ' = some ([.word w], .gap) := by
    rw [← hclose]
    rfl
  rw [run_cons, hstep]
  rfl

/-- A blank between words is passed over. -/
theorem run_gap_blank (rest : List Char) : run .gap (' ' :: rest) = run .gap rest := by
  have hstep : step .gap ' ' = some ([], .gap) := rfl
  rw [run_cons, hstep]
  simp

/-- Between single quotes every other character stands for itself. -/
theorem run_single (h : '\'' ∉ text) (bare : Bool) (rest : List Char) :
    run (.word w bare .single) (text ++ '\'' :: rest) = run (.word (w ++ text) bare .plain) rest := by
  induction text generalizing w with
  | nil =>
    have hstep : step (.word w bare .single) '\'' = some ([], .word w bare .plain) := rfl
    rw [List.nil_append, run_cons, hstep, List.append_nil]
    simp
  | cons c text ih =>
    obtain ⟨hc, htext⟩ : '\'' ≠ c ∧ '\'' ∉ text := by simpa using h
    have hstep : step (.word w bare .single) c = some ([], .word (w ++ [c]) bare .single) := by
      simp [step, readChar, Ne.symm hc]
    rw [List.cons_append, run_cons, hstep, Option.bind_some, ih htext, List.append_assoc]
    simp

/-- A character that stands for itself outside quotes and belongs to the word before it. -/
def Ordinary (c : Char) : Prop :=
  isBlank c = false ∧ startsOperator c = false ∧ expands c = false ∧ c ∉ ['\'', '"', '\\', '#', '~']

instance : DecidablePred Ordinary := fun c =>
  inferInstanceAs (Decidable (isBlank c = false ∧ startsOperator c = false ∧ expands c = false ∧
    c ∉ ['\'', '"', '\\', '#', '~']))

/-- Ordinary characters are one word. -/
theorem run_ordinary (h : ∀ c ∈ text, Ordinary c) (bare : Bool) (rest : List Char) :
    run (.word w bare .plain) (text ++ rest) = run (.word (w ++ text) bare .plain) rest := by
  induction text generalizing w with
  | nil => rw [List.nil_append, List.append_nil]
  | cons c text ih =>
    obtain ⟨hblank, hoperator, hexpands, hspecial⟩ := h c List.mem_cons_self
    simp only [List.mem_cons, List.not_mem_nil, or_false, not_or] at hspecial
    have hstep : step (.word w bare .plain) c = some ([], .word (w ++ [c]) bare .plain) := by
      simp [step, readChar, hblank, hoperator, hexpands, hspecial]
    have hrest := ih (w := w ++ [c]) fun d hd => h d (List.mem_cons_of_mem _ hd)
    rw [List.cons_append, run_cons, hstep, Option.bind_some, hrest, List.append_assoc]
    simp

/-- Ordinary characters after a blank start a word. -/
theorem run_gap_ordinary (h : ∀ c ∈ text, Ordinary c) (hne : text ≠ []) (rest : List Char) :
    run .gap (text ++ rest) = run (.word text true .plain) rest := by
  cases text with
  | nil => exact absurd rfl hne
  | cons c text =>
    obtain ⟨hblank, hoperator, hexpands, hspecial⟩ := h c List.mem_cons_self
    simp only [List.mem_cons, List.not_mem_nil, or_false, not_or] at hspecial
    have hstep : step .gap c = some ([], .word [c] true .plain) := by
      simp [step, start, readChar, hblank, hoperator, hexpands, hspecial]
    rw [List.cons_append, run_cons, hstep, Option.bind_some,
      run_ordinary (fun d hd => h d (List.mem_cons_of_mem _ hd))]
    simp

/-- Ordinary characters between blanks are a word of their own. -/
theorem run_gap_ordinary_blank_iff (h : ∀ c ∈ text, Ordinary c) (hne : text ≠ []) :
    run .gap (text ++ ' ' :: rest) = some (.word text :: toks) ↔ run .gap rest = some toks := by
  rw [run_gap_ordinary h hne, run_blank]
  cases run .gap rest with
  | none => simp
  | some more => simp

end Runs

/-- A text between single quotes. -/
def quote (text : List Char) : List Char := '\'' :: text ++ ['\'']

section Quotes

variable {w v t t₁ t₂ s : List Char} {q : Quoting} {c : Char} {toks out : List Token} {st : State}

/-- The characters that the reading of a word holds back. -/
def pending : Quoting → ℕ
  | .doubleEscaped => 1
  | _ => 0

/-- What a character adds to a word in which something was quoted: at most itself and what was held
back, and a space is added last. -/
theorem readChar_word (h : readChar w false q c = some st) :
    ∃ more q', st = .word (w ++ more) false q' ∧ more.length + pending q' ≤ pending q + 1 ∧
      (c = ' ' → q ≠ .plain → ∃ before, more = before ++ [' '] ∧ before.length ≤ pending q) ∧
      (q = .plain → pending q' = 0 ∧ (more = [] ∨ more = [c] ∧ c ≠ '\'')) := by
  cases q with
  | plain =>
    simp only [readChar] at h
    split_ifs at h with hsingle hdouble hback hexpands <;> cases h
    · exact ⟨[], .single, by simp, by simp [pending], by simp, by simp [pending]⟩
    · exact ⟨[], .double, by simp, by simp [pending], by simp, by simp [pending]⟩
    · exact ⟨[], .escaped, by simp, by simp [pending], by simp, by simp [pending]⟩
    · exact ⟨[c], .plain, rfl, by simp [pending], by simp, by simp [pending, hsingle]⟩
  | single =>
    simp only [readChar] at h
    split_ifs at h with hsingle <;> cases h
    · exact ⟨[], .plain, by simp, by simp [pending], by simp [hsingle], by simp⟩
    · exact ⟨[c], .single, rfl, by simp [pending], fun hc _ => ⟨[], by simp [hc], by simp⟩, by simp⟩
  | double =>
    simp only [readChar] at h
    split_ifs at h with hdouble hback hexpands <;> cases h
    · exact ⟨[], .plain, by simp, by simp [pending], by simp [hdouble], by simp⟩
    · exact ⟨[], .doubleEscaped, by simp, by simp [pending], by simp [hback], by simp⟩
    · exact ⟨[c], .double, rfl, by simp [pending], fun hc _ => ⟨[], by simp [hc], by simp⟩, by simp⟩
  | escaped =>
    simp only [readChar, Bool.false_and, Bool.false_eq_true, if_false] at h
    split_ifs at h with hline <;> cases h
    · exact ⟨[], .plain, by simp, by simp [pending], by simp [hline], by simp⟩
    · exact ⟨[c], .plain, rfl, by simp [pending], fun hc _ => ⟨[], by simp [hc], by simp⟩, by simp⟩
  | doubleEscaped =>
    simp only [readChar] at h
    split_ifs at h with hspecial hline <;> cases h
    · refine ⟨[c], .double, rfl, by simp [pending], fun hc _ => ⟨[], by simp [hc], by simp⟩, by simp⟩
    · exact ⟨[], .double, by simp, by simp [pending], by simp [hline], by simp⟩
    · refine ⟨['\\', c], .double, rfl, by simp [pending], fun hc _ => ?_, by simp⟩
      exact ⟨['\\'], by simp [hc], by simp [pending]⟩

/-- A character of a word in which something was quoted ends the word or belongs to it. -/
theorem step_word (h : step (.word w false q) c = some (out, st)) :
    (q = .plain ∧ out = [.word w]) ∨
      (c = ' ' → q ≠ .plain) ∧ out = [] ∧ readChar w false q c = some st := by
  have hstep : (if q = .plain ∧ (isBlank c || startsOperator c) = true then
      (start c).map fun s => ([closeWord w false c], s)
      else (readChar w false q c).map fun s => ([], s)) = some (out, st) := h
  by_cases hends : q = .plain ∧ (isBlank c || startsOperator c) = true
  · rw [if_pos hends] at hstep
    obtain ⟨st', -, heq⟩ := Option.map_eq_some_iff.mp hstep
    obtain ⟨rfl, rfl⟩ := Prod.mk.inj heq
    exact .inl ⟨hends.1, by simp [closeWord]⟩
  · rw [if_neg hends] at hstep
    obtain ⟨st', hread, heq⟩ := Option.map_eq_some_iff.mp hstep
    obtain ⟨rfl, rfl⟩ := Prod.mk.inj heq
    refine .inr ⟨?_, rfl, hread⟩
    rintro rfl hplain
    exact hends ⟨hplain, rfl⟩

/-- The reading of a word in which something was quoted completes a word that continues it. -/
theorem run_word_head (h : run (.word w false q) t = some toks) :
    ∃ x more, toks = .word (w ++ x) :: more := by
  induction t generalizing w q toks with
  | nil =>
    cases q with
    | plain =>
      have htoks : some [Token.word w] = some toks := h
      exact ⟨[], [], by simpa using (Option.some.inj htoks).symm⟩
    | _ => exact absurd h nofun
  | cons c t ih =>
    rw [run_cons, Option.bind_eq_some_iff] at h
    obtain ⟨⟨out, st⟩, hstep, hrest⟩ := h
    obtain ⟨rest, hrun, rfl⟩ := Option.map_eq_some_iff.mp hrest
    obtain ⟨-, rfl⟩ | ⟨-, rfl, hread⟩ := step_word hstep
    · exact ⟨[], rest, by simp⟩
    · obtain ⟨add, q', rfl, -⟩ := readChar_word hread
      obtain ⟨x, more, rfl⟩ := ih hrun
      exact ⟨add ++ x, more, by simp⟩

/-- Up to its first space the text adds no more to the word than itself and what was held back: the
word ends there, or goes on with that space. -/
theorem run_word_bound (hspace : ' ' ∉ t₁) (ht₂ : t₂ = [] ∨ ∃ r, t₂ = ' ' :: r)
    (h : run (.word w false q) (t₁ ++ t₂) = some toks) :
    ∃ x more, toks = .word (w ++ x) :: more ∧
      (x.length ≤ t₁.length + pending q ∨
        ∃ x₁ x₂, x = x₁ ++ ' ' :: x₂ ∧ x₁.length ≤ t₁.length + pending q) := by
  induction t₁ generalizing w q toks with
  | nil =>
    rw [List.nil_append] at h
    rcases ht₂ with rfl | ⟨r, rfl⟩
    · cases q with
      | plain =>
        have htoks : some [Token.word w] = some toks := h
        exact ⟨[], [], by simpa using (Option.some.inj htoks).symm, .inl (by simp)⟩
      | _ => exact absurd h nofun
    · rw [run_cons, Option.bind_eq_some_iff] at h
      obtain ⟨⟨out, st⟩, hstep, hrest⟩ := h
      obtain ⟨rest, hrun, rfl⟩ := Option.map_eq_some_iff.mp hrest
      obtain ⟨-, rfl⟩ | ⟨hquoted, rfl, hread⟩ := step_word hstep
      · exact ⟨[], rest, by simp, .inl (by simp)⟩
      · obtain ⟨add, q', rfl, -, hadd, -⟩ := readChar_word hread
        obtain ⟨before, rfl, hbefore⟩ := hadd rfl (hquoted rfl)
        obtain ⟨x, more, rfl⟩ := run_word_head hrun
        refine ⟨before ++ ' ' :: x, more, by simp, .inr ⟨before, x, rfl, ?_⟩⟩
        simpa using hbefore
  | cons c t₁ ih =>
    obtain ⟨-, hspace'⟩ : ' ' ≠ c ∧ ' ' ∉ t₁ := by simpa using hspace
    rw [List.cons_append, run_cons, Option.bind_eq_some_iff] at h
    obtain ⟨⟨out, st⟩, hstep, hrest⟩ := h
    obtain ⟨rest, hrun, rfl⟩ := Option.map_eq_some_iff.mp hrest
    obtain ⟨-, rfl⟩ | ⟨-, rfl, hread⟩ := step_word hstep
    · exact ⟨[], rest, by simp, .inl (by simp)⟩
    · obtain ⟨add, q', rfl, hlen, -⟩ := readChar_word hread
      obtain ⟨x, more, rfl, hx⟩ := ih hspace' hrun
      refine ⟨add ++ x, more, by simp, ?_⟩
      rcases hx with hx | ⟨x₁, x₂, rfl, hx₁⟩
      · left
        simp only [List.length_append, List.length_cons]
        omega
      · right
        refine ⟨add ++ x₁, x₂, by simp, ?_⟩
        simp only [List.length_append, List.length_cons]
        omega

/-- A space is no part of what stands before the first one. -/
theorem length_le_of_space {a b x₁ x₂ : List Char} (hspace : ' ' ∉ a)
    (h : a ++ ' ' :: b = x₁ ++ ' ' :: x₂) : a.length ≤ x₁.length := by
  rcases List.append_eq_append_iff.mp h with ⟨as, rfl, -⟩ | ⟨bs, rfl, hbs⟩
  · simp
  · cases bs with
    | nil => simp
    | cons d bs =>
      obtain ⟨rfl, -⟩ := List.cons.inj hbs
      exact absurd (by simp) hspace

/-- After a quotation has ended, a text with one more quote does not put that quote into the word and
the rest after it. -/
theorem run_ne_of_quote (ht : t = [] ∨ ∃ r, t = ' ' :: r) :
    run (.word w false .plain) (v ++ '\'' :: t) ≠ some (.word (w ++ '\'' :: v) :: toks) := by
  intro h
  -- the text up to its first space, which is all that the word may take
  obtain ⟨t₁, t₂, hsplit, hspace, ht₂, hv⟩ : ∃ t₁ t₂, v ++ '\'' :: t = t₁ ++ t₂ ∧ ' ' ∉ t₁ ∧
      (t₂ = [] ∨ ∃ r, t₂ = ' ' :: r) ∧
      (t₁ = v ++ ['\''] ∧ ' ' ∉ v ∨ ∃ v₂, v = t₁ ++ ' ' :: v₂) := by
    by_cases hv : ' ' ∈ v
    · obtain ⟨v₁, v₂, rfl, hv₁⟩ := List.eq_append_cons_of_mem hv
      exact ⟨v₁, ' ' :: (v₂ ++ '\'' :: t), by simp, hv₁, .inr ⟨_, rfl⟩, .inr ⟨v₂, rfl⟩⟩
    · exact ⟨v ++ ['\''], t, by simp, by simp [hv], ht, .inl ⟨rfl, hv⟩⟩
  rw [hsplit] at h
  cases t₁ with
  | nil =>
    obtain ⟨hnil, -⟩ | ⟨v₂, rfl⟩ := hv
    · simp at hnil
    · obtain ⟨r, rfl⟩ : ∃ r, t₂ = ' ' :: r := ⟨v₂ ++ '\'' :: t, by simpa using hsplit.symm⟩
      rw [List.nil_append, run_blank, Option.map_eq_some_iff] at h
      obtain ⟨rest, -, heq⟩ := h
      simp at heq
  | cons c t₁ =>
    obtain ⟨-, hspace'⟩ : ' ' ≠ c ∧ ' ' ∉ t₁ := by simpa using hspace
    rw [List.cons_append, run_cons, Option.bind_eq_some_iff] at h
    obtain ⟨⟨out, st⟩, hstep, hrest⟩ := h
    obtain ⟨rest, hrun, heq⟩ := Option.map_eq_some_iff.mp hrest
    obtain ⟨-, rfl⟩ | ⟨-, rfl, hread⟩ := step_word hstep
    · simp at heq
    obtain ⟨add, q', rfl, -, -, hplain⟩ := readChar_word hread
    obtain ⟨hpending, hadd⟩ := hplain rfl
    obtain ⟨x, more, rfl, hx⟩ := run_word_bound hspace' ht₂ hrun
    obtain ⟨hword, -⟩ : add ++ x = '\'' :: v ∧ more = toks := by simpa using heq
    rcases hadd with rfl | ⟨rfl, hc⟩
    · obtain rfl : x = '\'' :: v := hword
      rw [hpending] at hx
      rcases hv with ⟨ht₁, hv⟩ | ⟨v₂, rfl⟩
      · have hlen : t₁.length = v.length := by simpa using congrArg List.length ht₁
        rcases hx with hx | ⟨x₁, x₂, hx, -⟩
        · rw [List.length_cons] at hx
          omega
        · have hmem : ' ' ∈ '\'' :: v := by simp [hx]
          simp [hv] at hmem
      · rcases hx with hx | ⟨x₁, x₂, hx, hx₁⟩
        · simp only [List.length_cons, List.length_append] at hx
          omega
        · have hle : ('\'' :: c :: t₁).length ≤ x₁.length := by
            refine length_le_of_space (b := v₂) ?_ hx
            simpa using hspace
          simp only [List.length_cons] at hle
          omega
    · exact hc (List.cons.inj hword).1

/-- A text between single quotes is read as itself exactly when it contains no single quote. -/
theorem run_quote_iff (ht : t = [] ∨ ∃ r, t = ' ' :: r) (bare : Bool) :
    run (.word w bare .plain) (quote s ++ t) = some (.word (w ++ s) :: toks) ↔
      '\'' ∉ s ∧ run (.word (w ++ s) false .plain) t = some (.word (w ++ s) :: toks) := by
  have hopen (rest : List Char) : run (.word w bare .plain) ('\'' :: rest) =
      run (.word w false .single) rest := by
    have hstep : step (.word w bare .plain) '\'' = some ([], .word w false .single) := rfl
    rw [run_cons, hstep]
    simp
  have hquote : quote s ++ t = '\'' :: (s ++ '\'' :: t) := by simp [quote]
  rw [hquote, hopen]
  by_cases hs : '\'' ∈ s
  · obtain ⟨u, v, rfl, hu⟩ := List.eq_append_cons_of_mem hs
    refine iff_of_false (fun h => ?_) fun h => h.1 hs
    rw [List.append_assoc, List.cons_append, run_single hu, ← List.append_assoc w] at h
    exact run_ne_of_quote ht h
  · rw [run_single hs]
    exact ⟨fun h => ⟨hs, h⟩, fun h => h.2⟩

/-- A quote begins a word. -/
theorem run_gap_quote (s rest : List Char) :
    run .gap (quote s ++ rest) = run (.word [] false .plain) (quote s ++ rest) := by
  have hgap : step .gap '\'' = some ([], .word [] false .single) := rfl
  have hword : step (.word [] false .plain) '\'' = some ([], .word [] false .single) := rfl
  have hquote : quote s ++ rest = '\'' :: (s ++ '\'' :: rest) := by simp [quote]
  rw [hquote, run_cons, run_cons, hgap, hword]

/-- A quoted text up to a blank is a word of its own exactly when it contains no single quote. -/
theorem run_quote_blank_iff {bare : Bool} {rest : List Char} :
    run (.word w bare .plain) (quote s ++ ' ' :: rest) = some (.word (w ++ s) :: toks) ↔
      '\'' ∉ s ∧ run .gap rest = some toks := by
  rw [run_quote_iff (.inr ⟨rest, rfl⟩), run_blank]
  cases run .gap rest with
  | none => simp
  | some more => simp

/-- A quoted word is taken exactly if it holds no quote. -/
theorem run_gap_quote_blank_iff {rest : List Char} :
    run .gap (quote s ++ ' ' :: rest) = some (.word s :: toks) ↔
      '\'' ∉ s ∧ run .gap rest = some toks := by
  rw [run_gap_quote]
  exact run_quote_blank_iff (w := [])

/-- A quoted text at the end of a line. -/
theorem run_gap_quote_end_iff : run .gap (quote s) = some [.word s] ↔ '\'' ∉ s := by
  have hend : run (.word s false .plain) [] = some [.word s] := rfl
  have hquote : run (.word [] false .plain) (quote s ++ []) = some [.word ([] ++ s)] ↔
      '\'' ∉ s ∧ run (.word ([] ++ s) false .plain) [] = some [.word ([] ++ s)] :=
    run_quote_iff (.inl rfl) false
  rw [List.append_nil, List.nil_append, hend] at hquote
  rw [← List.append_nil (quote s), run_gap_quote, List.append_nil]
  simpa using hquote

/-- Quoted texts between blanks are one word each exactly when none contains a single quote. -/
theorem run_gap_quotes_iff {texts : List (List Char)} {rest : List Char} :
    run .gap ([' '].intercalate (texts.map quote) ++ ' ' :: rest) =
        some (texts.map Token.word ++ toks) ↔
      (∀ s ∈ texts, '\'' ∉ s) ∧ run .gap rest = some toks := by
  induction texts with
  | nil => simp [List.intercalate, run_gap_blank]
  | cons s texts ih =>
    cases texts with
    | nil =>
      have hlast : run .gap (quote s ++ ' ' :: rest) = some (.word s :: toks) ↔
          '\'' ∉ s ∧ run .gap rest = some toks := run_gap_quote_blank_iff
      simpa [List.intercalate] using hlast
    | cons u texts =>
      have hjoin : [' '].intercalate ((s :: u :: texts).map quote) ++ ' ' :: rest =
          quote s ++ ' ' :: ([' '].intercalate ((u :: texts).map quote) ++ ' ' :: rest) := by
        simp [List.intercalate]
      have htoks : (s :: u :: texts).map Token.word ++ toks =
          .word s :: ((u :: texts).map Token.word ++ toks) := rfl
      rw [hjoin, htoks, run_gap_quote_blank_iff, ih, ← and_assoc]
      simp

end Quotes

end Base.Shell
