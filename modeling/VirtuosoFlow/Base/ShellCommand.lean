import VirtuosoFlow.Base.ShellWords

/-!
# Simple commands of the shell

A command line of words: the assignments at its front, then a program and its arguments. A word is an
assignment when it is spelled with a name and an equals sign outside quotes, so each word is read with
its spelling. Words that are written between single quotes, with every single quote of theirs escaped
outside the quotes, are read back as they are, whatever they hold.
-/

namespace Base.Shell

section Spelling

/-- A line that goes on: the newline and the backslash before it are no part of a word. -/
def joinsLine : State → Char → Bool
  | .word _ _ .escaped, c => c == '\n'
  | _, _ => false

/-- The spelling of what is being read after one more character, given the tokens it completed. -/
def spellingAfter (s : State) (spelling : List Char) (c : Char) (out : List Token) : State → List Char
  | .gap => []
  | .comment => []
  | _ => if !out.isEmpty then [c] else if joinsLine s c then spelling.dropLast else spelling ++ [c]

/-- The tokens of the rest of a line, each with its spelling. -/
def runSpelled (s : State) (spelling : List Char) : List Char → Option (List (Token × List Char))
  | [] => (finish s).map fun out => out.map (·, spelling)
  | c :: rest => (step s c).bind fun out =>
      (runSpelled out.2 (spellingAfter s spelling c out.1 out.2) rest).map fun more =>
        out.1.map (·, spelling) ++ more

/-- The tokens are those of the line. -/
theorem map_fst_runSpelled (s : State) (spelling text : List Char) :
    (runSpelled s spelling text).map (List.map Prod.fst) = run s text := by
  induction text generalizing s spelling with
  | nil =>
    cases hfinish : finish s with
    | none => simp [runSpelled, run, feed, hfinish]
    | some out => simp [runSpelled, run, feed, hfinish, Function.comp_def]
  | cons c rest ih =>
    rw [run_cons, runSpelled]
    cases hstep : step s c with
    | none => rfl
    | some out =>
      rw [Option.bind_some, Option.bind_some, ← ih out.2 (spellingAfter s spelling c out.1 out.2)]
      cases runSpelled out.2 (spellingAfter s spelling c out.1 out.2) rest with
      | none => rfl
      | some more => simp [Function.comp_def]

end Spelling

section Commands

/-- What a command line of words runs: variables for its environment, and a program with its arguments. -/
structure Command where
  assignments : List (List Char × List Char)
  words : List (List Char)
  deriving DecidableEq

/-- The characters of the names of variables. -/
def isVariableChar (c : Char) : Bool := c.isAlphanum || c == '_'

/-- The variable that a word with this spelling assigns to. -/
def assignedVariable (spelling : List Char) : Option (List Char) :=
  let name := spelling.takeWhile isVariableChar
  if name.isEmpty || name.head?.any Char.isDigit then none
  else if (spelling.dropWhile isVariableChar).head? = some '=' then some name
  else none

/-- The words, if there is nothing else. -/
def onlyWords : List (Token × List Char) → Option (List (List Char × List Char))
  | [] => some []
  | (.word text, spelling) :: rest => (onlyWords rest).map ((text, spelling) :: ·)
  | _ => none

/-- Words up to the first one that is no assignment are assignments. -/
def commandOf : List (List Char × List Char) → Command
  | [] => ⟨[], []⟩
  | (text, spelling) :: rest =>
    match assignedVariable spelling with
    | some name =>
      ⟨(name, text.drop (name.length + 1)) :: (commandOf rest).assignments, (commandOf rest).words⟩
    | none => ⟨[], text :: rest.map Prod.fst⟩

/-- The command of a line that consists of words. -/
def simpleCommand (line : List Char) : Option Command :=
  (runSpelled .gap [] line).bind fun toks => (onlyWords toks).map commandOf

end Commands

section Escaped

/-- A text between single quotes, its own single quotes escaped between two quotations. -/
def shellQuote (text : List Char) : List Char :=
  '\'' :: text.flatMap (fun c => if c = '\'' then ['\'', '\\', '\'', '\''] else [c]) ++ ['\'']

variable {w spelling text rest : List Char} {bare : Bool}

/-- One more character of a word is one more character of its spelling. -/
theorem runSpelled_char {q q' : Quoting} {w' : List Char} {bare' : Bool} {c : Char}
    (hstep : step (.word w bare q) c = some ([], .word w' bare' q')) (hnew : q ≠ .escaped ∨ c ≠ '\n') :
    runSpelled (.word w bare q) spelling (c :: rest) =
      runSpelled (.word w' bare' q') (spelling ++ [c]) rest := by
  have hjoins : joinsLine (.word w bare q) c = false := by
    cases q with
    | escaped => simpa [joinsLine] using hnew
    | _ => rfl
  have hspelling : spellingAfter (.word w bare q) spelling c [] (.word w' bare' q') = spelling ++ [c] := by
    simp [spellingAfter, hjoins]
  rw [runSpelled, hstep, Option.bind_some, hspelling]
  simp

/-- The rest of an escaped text up to its closing quote. -/
theorem runSpelled_escaped (text : List Char) :
    runSpelled (.word w false .single) spelling
        (text.flatMap (fun c => if c = '\'' then ['\'', '\\', '\'', '\''] else [c]) ++ '\'' :: rest) =
      runSpelled (.word (w ++ text) false .plain)
        (spelling ++ text.flatMap (fun c => if c = '\'' then ['\'', '\\', '\'', '\''] else [c]) ++ ['\''])
        rest := by
  induction text generalizing w spelling with
  | nil =>
    have hclose : step (.word w false .single) '\'' = some ([], .word w false .plain) := rfl
    rw [List.flatMap_nil, List.nil_append, runSpelled_char hclose (.inl (by decide)), List.append_nil,
      List.append_nil]
  | cons c text ih =>
    by_cases hc : c = '\''
    · subst hc
      -- out of the quotation, the escaped quote, and into the next quotation
      have hclose : step (.word w false .single) '\'' = some ([], .word w false .plain) := rfl
      have hescape : step (.word w false .plain) '\\' = some ([], .word w false .escaped) := rfl
      have hquote : step (.word w false .escaped) '\'' = some ([], .word (w ++ ['\'']) false .plain) := rfl
      have hopen : step (.word (w ++ ['\'']) false .plain) '\'' =
          some ([], .word (w ++ ['\'']) false .single) := rfl
      rw [List.flatMap_cons, if_pos rfl]
      simp only [List.cons_append, List.nil_append]
      rw [runSpelled_char hclose (.inl (by decide)), runSpelled_char hescape (.inl (by decide)),
        runSpelled_char hquote (.inr (by decide)), runSpelled_char hopen (.inl (by decide)), ih]
      simp
    · have hstep : step (.word w false .single) c = some ([], .word (w ++ [c]) false .single) := by
        simp [step, readChar, hc]
      rw [List.flatMap_cons, if_neg hc]
      simp only [List.cons_append, List.nil_append]
      rw [runSpelled_char hstep (.inl (by decide)), ih]
      simp

/-- A quoted text goes on the word before it. -/
theorem runSpelled_shellQuote (text : List Char) :
    runSpelled (.word w bare .plain) spelling (shellQuote text ++ rest) =
      runSpelled (.word (w ++ text) false .plain) (spelling ++ shellQuote text) rest := by
  have hopen : step (.word w bare .plain) '\'' = some ([], .word w false .single) := rfl
  have hquote : shellQuote text ++ rest = '\'' ::
      (text.flatMap (fun c => if c = '\'' then ['\'', '\\', '\'', '\''] else [c]) ++ '\'' :: rest) := by
    simp [shellQuote]
  rw [hquote, runSpelled_char hopen (.inl (by decide)), runSpelled_escaped]
  simp [shellQuote]

/-- Ordinary characters go on the word before them. -/
theorem runSpelled_ordinary (h : ∀ c ∈ text, Ordinary c) :
    runSpelled (.word w bare .plain) spelling (text ++ rest) =
      runSpelled (.word (w ++ text) bare .plain) (spelling ++ text) rest := by
  induction text generalizing w spelling with
  | nil => rw [List.nil_append, List.append_nil, List.append_nil]
  | cons c text ih =>
    obtain ⟨hblank, hoperator, hexpands, hspecial⟩ := h c List.mem_cons_self
    simp only [List.mem_cons, List.not_mem_nil, or_false, not_or] at hspecial
    have hstep : step (.word w bare .plain) c = some ([], .word (w ++ [c]) bare .plain) := by
      simp [step, readChar, hblank, hoperator, hexpands, hspecial]
    rw [List.cons_append, runSpelled_char hstep (.inl (by decide)),
      ih fun d hd => h d (List.mem_cons_of_mem _ hd)]
    simp

end Escaped

section Assignments

/-- The name of a variable. -/
def IsVariable (name : List Char) : Prop :=
  name ≠ [] ∧ name.all isVariableChar = true ∧ name.head?.any Char.isDigit = false

/-- A name before an equals sign is the variable that is assigned. -/
theorem assignedVariable_of_name {name : List Char} (h : IsVariable name) (rest : List Char) :
    assignedVariable (name ++ '=' :: rest) = some name := by
  obtain ⟨hne, hchars, hdigit⟩ := h
  have hall : ∀ c ∈ name, isVariableChar c = true := List.all_eq_true.mp hchars
  have hend : isVariableChar '=' = false := rfl
  have htake : (name ++ '=' :: rest).takeWhile isVariableChar = name := by
    rw [List.takeWhile_append_of_pos hall, List.takeWhile_cons, hend]
    simp
  have hdrop : (name ++ '=' :: rest).dropWhile isVariableChar = '=' :: rest := by
    rw [List.dropWhile_append_of_pos hall, List.dropWhile_cons, hend]
    simp
  simp [assignedVariable, htake, hdrop, hne, hdigit]

/-- A word that begins with a quote is no assignment. -/
theorem assignedVariable_shellQuote (text : List Char) : assignedVariable (shellQuote text) = none := by
  have htake : (shellQuote text).takeWhile isVariableChar = [] := by
    rw [shellQuote, List.cons_append, List.takeWhile_cons]
    rfl
  simp [assignedVariable, htake]

end Assignments

section Written

/-- A word as it is written: ordinary characters, then a text between quotes or nothing. -/
structure Written where
  plain : List Char
  quoted : Option (List Char)
  ordinary : ∀ c ∈ plain, Ordinary c
  nonempty : plain = [] → quoted ≠ none

namespace Written

variable (word : Written)

/-- The word as it is typed. -/
def spelling : List Char := word.plain ++ (word.quoted.map shellQuote).getD []

/-- What it stands for. -/
def text : List Char := word.plain ++ word.quoted.getD []

/-- Ordinary characters alone. -/
def ofPlain (plain : List Char) (ordinary : ∀ c ∈ plain, Ordinary c) (hne : plain ≠ []) : Written :=
  ⟨plain, none, ordinary, fun h => absurd h hne⟩

/-- A text between quotes, behind ordinary characters. -/
def ofQuoted (plain quoted : List Char) (ordinary : ∀ c ∈ plain, Ordinary c) : Written :=
  ⟨plain, some quoted, ordinary, fun _ => Option.some_ne_none quoted⟩

/-- After a blank the word is read up to what follows it. -/
theorem runSpelled_gap (rest : List Char) : ∃ bare, runSpelled .gap [] (word.spelling ++ rest) =
    runSpelled (.word word.text bare .plain) word.spelling rest := by
  obtain ⟨plain, quoted, hordinary, hne⟩ := word
  cases plain with
  | nil =>
    cases quoted with
    | none => exact absurd rfl (hne rfl)
    | some quoted =>
      have hgap : runSpelled .gap [] (shellQuote quoted ++ rest) =
          runSpelled (.word [] false .plain) [] (shellQuote quoted ++ rest) := rfl
      exact ⟨false, hgap.trans (runSpelled_shellQuote quoted)⟩
  | cons c plain =>
    obtain ⟨hblank, hoperator, hexpands, hspecial⟩ := hordinary c List.mem_cons_self
    simp only [List.mem_cons, List.not_mem_nil, or_false, not_or] at hspecial
    have hstep : step .gap c = some ([], .word [c] true .plain) := by
      simp [step, start, readChar, hblank, hoperator, hexpands, hspecial]
    have hplain : ∀ rest, runSpelled .gap [] (c :: plain ++ rest) =
        runSpelled (.word (c :: plain) true .plain) (c :: plain) rest := by
      intro rest
      rw [List.cons_append, runSpelled, hstep, Option.bind_some]
      have hrest := @runSpelled_ordinary [c] [c] plain rest true fun d hd =>
        hordinary d (List.mem_cons_of_mem _ hd)
      simpa [spellingAfter, joinsLine] using hrest
    cases quoted with
    | none =>
      refine ⟨true, ?_⟩
      simpa [spelling, text] using hplain rest
    | some quoted =>
      refine ⟨false, ?_⟩
      have hread := hplain (shellQuote quoted ++ rest)
      rw [runSpelled_shellQuote] at hread
      simpa [spelling, text] using hread

/-- Words between blanks are read as they were meant. -/
theorem runSpelled_intercalate (first : Written) (others : List Written) :
    runSpelled .gap [] ([' '].intercalate ((first :: others).map spelling)) =
      some ((first :: others).map fun word => (.word word.text, word.spelling)) := by
  induction others generalizing first with
  | nil =>
    obtain ⟨bare, hread⟩ := first.runSpelled_gap []
    rw [List.append_nil] at hread
    rw [List.map_singleton, List.intercalate_singleton, hread]
    rfl
  | cons next others ih =>
    obtain ⟨bare, hread⟩ := first.runSpelled_gap (' ' :: [' '].intercalate ((next :: others).map spelling))
    have hline : [' '].intercalate ((first :: next :: others).map spelling) =
        first.spelling ++ ' ' :: [' '].intercalate ((next :: others).map spelling) := by
      simp [List.intercalate]
    have hblank : step (.word first.text bare .plain) ' ' = some ([.word first.text], .gap) := by
      have hclose : closeWord first.text bare ' ' = .word first.text := by
        simp [closeWord]
      rw [← hclose]
      rfl
    rw [hline, hread, runSpelled, hblank, Option.bind_some]
    dsimp only [spellingAfter]
    rw [ih]
    rfl

/-- The command of a line of written words. -/
theorem simpleCommand_intercalate (first : Written) (others : List Written) :
    simpleCommand ([' '].intercalate ((first :: others).map spelling)) =
      some (commandOf ((first :: others).map fun word => (word.text, word.spelling))) := by
  have hwords : ∀ words : List Written, onlyWords (words.map fun word => (.word word.text, word.spelling)) =
      some (words.map fun word => (word.text, word.spelling)) := by
    intro words
    induction words with
    | nil => rfl
    | cons word words ih => rw [List.map_cons, onlyWords, ih]; rfl
  rw [simpleCommand, runSpelled_intercalate, Option.bind_some, hwords]
  rfl

end Written

end Written

end Base.Shell
