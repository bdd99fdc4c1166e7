import VirtuosoFlow.Tunnel.DoneResults

/-!
# Metrics files of two kinds

The same metrics as a JSON file, and as a text file of entries with comments and blank lines between
them. The text parser tries its separators in a fixed order on each line, and what it takes for a line
ends at more characters than a newline, so a comment may hold what it reads as an entry.
-/

namespace VirtuosoFlow.Tunnel

open Base

section Lines

/-- White space within a line. -/
def IsPad (s : List Char) : Prop := ∀ c ∈ s, isPySpace c = true ∧ isLineEnd c = false

/-- What names and values consist of: no white space, and none of the separators. -/
def isEntryChar (c : Char) : Bool := !isPySpace c && c != '=' && c != ','

/-- A name or a value. -/
structure EntryWord (word : List Char) : Prop where
  nonempty : word ≠ []
  chars : ∀ c ∈ word, isEntryChar c = true

/-- A name of a metric begins neither a comment nor a JSON text. -/
structure MetricName (name : List Char) : Prop where
  word : EntryWord name
  front : ∀ c ∈ name.head?, c ∉ ['#', ';', '{', '[']

/-- The forms of an entry: `name=value`, `name,value`, `name<TAB>value` and `name value`. -/
inductive EntryForm where
  | equals | comma | tab | space
  deriving DecidableEq

/-- The separator of a form. -/
def EntryForm.sep : EntryForm → Char
  | .equals => '='
  | .comma => ','
  | .tab => '\t'
  | .space => ' '

/-- An entry, with the white space around its name and its value. -/
structure EntryLine where
  indent : List Char
  name : List Char
  afterName : List Char
  form : EntryForm
  beforeValue : List Char
  value : List Char
  trailing : List Char

/-- What stands between the name and the value. -/
def EntryLine.middle (e : EntryLine) : List Char := e.afterName ++ e.form.sep :: e.beforeValue

/-- A line of a text file, up to its newline. -/
inductive MetricsLine where
  | entry (e : EntryLine)
  | comment (indent : List Char) (mark : Char) (text : List Char)
  | blank (text : List Char)

namespace MetricsLine

/-- What the line says. -/
def text : MetricsLine → List Char
  | .entry e => e.indent ++ (e.name ++ e.middle ++ e.value) ++ e.trailing
  | .comment indent mark text => indent ++ mark :: text
  | .blank text => text

/-- The line is a comment. -/
def isComment : MetricsLine → Bool
  | .comment .. => true
  | _ => false

/-- The entry that a line lists. -/
def listed (env : Env) : MetricsLine → Option (String × Json)
  | .entry e => (env.floatOf (String.ofList e.value)).map fun x => (String.ofList e.name, .float x)
  | _ => none

/-- An entry with a value that `float` reads, a comment, or white space. -/
def WellFormed (env : Env) : MetricsLine → Prop
  | .entry e =>
    MetricName e.name ∧ EntryWord e.value ∧
      (∀ s ∈ [e.indent, e.afterName, e.beforeValue, e.trailing], IsPad s) ∧
      (env.floatOf (String.ofList e.value)).isSome = true
  | .comment indent mark text => IsPad indent ∧ mark ∈ ['#', ';'] ∧ '\n' ∉ text ∧ '\r' ∉ text
  | .blank text => ∀ c ∈ text, isPySpace c = true ∧ c ≠ '\n' ∧ c ≠ '\r'

end MetricsLine

/-- The text of a file of these lines. -/
def fileText (lines : List MetricsLine) : String :=
  String.ofList (['\n'].intercalate (lines.map MetricsLine.text))

/-- The entries that the parser reads in a part of a text. -/
def entriesOf (env : Env) (text : List Char) : List (String × Json) :=
  (splitLines [] text).filterMap (lineEntry env)

/-- The part of a comment behind the first line end in it. -/
def hiddenPart (text : List Char) : List Char := (text.dropWhile fun c => !isLineEnd c).tail

/-- The entries that stand in a line: the one it lists, or those that a comment hides. -/
def MetricsLine.entries (env : Env) : MetricsLine → List (String × Json)
  | .comment _ _ text => entriesOf env (hiddenPart text)
  | line => (line.listed env).toList

/-- The entries that stand in a file, in order, marked where a comment hides them. -/
def listing (env : Env) (lines : List MetricsLine) : List (Bool × String × Json) :=
  lines.flatMap fun line => (line.entries env).map (line.isComment, ·)

/-- The last entry of this name that stands in a file. -/
def StandsLast (env : Env) (lines : List MetricsLine) (key : String) (x : Json) : Prop :=
  ∃ before mark after, listing env lines = before ++ (mark, key, x) :: after ∧ ∀ e ∈ after, e.2.1 ≠ key

/-- The metrics as the members of a JSON object. -/
def asMembers (metrics : List (String × ℚ)) : Obj := metrics.map fun e => (e.1, .float (.finite e.2))

/-- A text file that lists each of these metrics once. -/
structure MetricsText (env : Env) (metrics : List (String × ℚ)) (lines : List MetricsLine) : Prop where
  distinct : (metrics.map Prod.fst).Nodup
  wellFormed : ∀ line ∈ lines, line.WellFormed env
  once : (lines.filterMap (MetricsLine.listed env)).Perm (asMembers metrics)

/-- The JSON file of these metrics. -/
structure MetricsJson (env : Env) (metrics : List (String × ℚ)) (text : String) : Prop where
  front : (text.toList.dropWhile isPySpace).head? = some '{'
  loads : env.jsonLoads text = .ok (.obj [("metrics", .obj (asMembers metrics))])

/-- Two files are parsed to the same metrics and nothing else. -/
def SameMetrics (parsed parsed' : Except PyExc Obj) : Prop :=
  ∃ metrics metrics', parsed = .ok [("metrics", .obj metrics)] ∧ parsed' = .ok [("metrics", .obj metrics')] ∧
    ∀ key x, (key, x) ∈ metrics ↔ (key, x) ∈ metrics'

/-- What comments hide does not matter: its name stands again behind it, or it is one of the metrics. -/
def CommentsHarmless (env : Env) (metrics : List (String × ℚ)) (lines : List MetricsLine) : Prop :=
  ∀ before key x after, listing env lines = before ++ (true, key, x) :: after →
    (∃ e ∈ after, e.2.1 = key) ∨ (key, x) ∈ asMembers metrics

end Lines

section Words

variable {word rest pad : List Char} {c : Char}

/-- What ends a line is white space. -/
theorem isPySpace_of_isLineEnd (h : isLineEnd c = true) : isPySpace c = true := by
  simp only [isLineEnd, isPySpace, Bool.or_eq_true, Bool.and_eq_true, decide_eq_true_eq, beq_iff_eq] at h ⊢
  omega

/-- The characters of words are not white space, so no line ends in them. -/
theorem isEntryChar_iff : isEntryChar c = true ↔ isPySpace c = false ∧ c ≠ '=' ∧ c ≠ ',' := by
  simp [isEntryChar, and_assoc]

/-- Letters, digits, underscores, dots, colons and parentheses are such characters. -/
theorem isEntryChar_of_word (h : c.isAlphanum = true ∨ c ∈ ['_', '.', ':', '(', ')']) : isEntryChar c = true := by
  rcases h with h | h
  · have hrange : 48 ≤ c.toNat ∧ c.toNat ≤ 122 ∧ c.toNat ≠ 61 := by
      have hclasses : c.isAlphanum = (decide (c.val ≥ 'A'.val ∧ c.val ≤ 'Z'.val) ||
          (decide (c.val ≥ 'a'.val) && decide (c.val ≤ 'z'.val)) ||
          (decide (c.val ≥ '0'.val) && decide (c.val ≤ '9'.val))) := rfl
      rw [hclasses] at h
      simp only [Bool.or_eq_true, Bool.and_eq_true, decide_eq_true_eq, UInt32.le_iff_toNat_le, ge_iff_le] at h
      have hval : c.toNat = c.val.toNat := rfl
      have hbounds : 'A'.val.toNat = 65 ∧ 'Z'.val.toNat = 90 ∧ 'a'.val.toNat = 97 ∧ 'z'.val.toNat = 122 ∧
        '0'.val.toNat = 48 ∧ '9'.val.toNat = 57 := by decide
      omega
    refine isEntryChar_iff.mpr ⟨?_, ?_, ?_⟩
    · simp only [isPySpace, Bool.or_eq_false_iff, Bool.and_eq_false_iff, decide_eq_false_iff_not,
        beq_eq_false_iff_ne]
      omega
    · rintro rfl
      exact hrange.2.2 rfl
    · rintro rfl
      exact absurd hrange.1 (by decide)
  · simp only [List.mem_cons, List.not_mem_nil, or_false] at h
    rcases h with rfl | rfl | rfl | rfl | rfl <;> decide

/-- A word of such characters is a name. -/
theorem metricName_of_word (hne : word ≠ [])
    (h : ∀ c ∈ word, c.isAlphanum = true ∨ c ∈ ['_', '.', ':', '(', ')']) : MetricName word := by
  refine ⟨⟨hne, fun c hc => isEntryChar_of_word (h c hc)⟩, fun c hc => ?_⟩
  have hchar := h c (List.mem_of_mem_head? hc)
  intro hmark
  simp only [List.mem_cons, List.not_mem_nil, or_false] at hmark
  rcases hmark with rfl | rfl | rfl | rfl <;> revert hchar <;> decide

/-- White space before a text is stripped. -/
theorem dropWhile_pad (hpad : ∀ c ∈ pad, isPySpace c = true) (rest : List Char) :
    (pad ++ rest).dropWhile isPySpace = rest.dropWhile isPySpace := List.dropWhile_append_of_pos hpad

/-- Nothing is stripped off a text that begins with no white space. -/
theorem dropWhile_of_head (h : ∀ c ∈ rest.head?, isPySpace c = false) : rest.dropWhile isPySpace = rest := by
  cases rest with
  | nil => rfl
  | cons c rest => simp [h c rfl]

/-- White space around a text whose ends are none is stripped. -/
theorem strip_padded {front back core : List Char} (hfront : ∀ c ∈ front, isPySpace c = true)
    (hback : ∀ c ∈ back, isPySpace c = true) (hhead : ∀ c ∈ core.head?, isPySpace c = false)
    (hlast : ∀ c ∈ core.getLast?, isPySpace c = false) (hne : core ≠ []) :
    strip (front ++ core ++ back) = core := by
  have hstart : (front ++ core ++ back).dropWhile isPySpace = core ++ back := by
    rw [List.append_assoc, dropWhile_pad hfront]
    refine dropWhile_of_head fun c hc => hhead c ?_
    rwa [List.head?_append_of_ne_nil _ hne] at hc
  have hend : (core ++ back).reverse.dropWhile isPySpace = core.reverse := by
    rw [List.reverse_append, dropWhile_pad (fun c hc => hback c (List.mem_reverse.mp hc))]
    refine dropWhile_of_head fun c hc => hlast c ?_
    rwa [List.head?_reverse] at hc
  rw [strip, hstart, hend, List.reverse_reverse]

/-- A blank text is stripped to nothing. -/
theorem strip_blank (h : ∀ c ∈ pad, isPySpace c = true) : strip pad = [] := by
  have hdrop : pad.dropWhile isPySpace = [] := by
    rw [← List.append_nil pad, dropWhile_pad h]
    rfl
  rw [strip, hdrop]
  rfl

end Words

section Pieces

variable {env : Env} {line text rest : List Char}

/-- Reading starts again behind a line end. -/
theorem filterMap_splitLines_append {β : Type} {f : List Char → Option β} (hf : f [] = none) {c : Char}
    (hc : isLineEnd c = true) (line text rest : List Char) :
    (splitLines line (text ++ c :: rest)).filterMap f =
      (splitLines line text).filterMap f ++ (splitLines [] rest).filterMap f := by
  induction text generalizing line with
  | nil =>
    have hend : splitLines line (c :: rest) = line :: splitLines [] rest := by rw [splitLines, if_pos hc]
    rw [List.nil_append, hend, splitLines]
    cases line with
    | nil => simp [hf]
    | cons d line => simp [List.filterMap_cons]; cases f (d :: line) <;> rfl
  | cons d text ih =>
    rw [List.cons_append, splitLines, splitLines]
    split
    · rw [List.filterMap_cons, List.filterMap_cons, ih]
      cases f line <;> rfl
    · exact ih _

/-- A text without line ends is one line. -/
theorem splitLines_of_plain (h : ∀ c ∈ text, isLineEnd c = false) (line : List Char) :
    splitLines line text = if (line ++ text).isEmpty then [] else [line ++ text] := by
  induction text generalizing line with
  | nil => rw [List.append_nil, splitLines]
  | cons c text ih =>
    obtain ⟨hc, htext⟩ := List.forall_mem_cons.mp h
    rw [splitLines, if_neg (by simp [hc]), ih htext]
    simp

/-- The lines of a text consist of its characters. -/
theorem mem_of_mem_splitLines {raw : List Char} (h : raw ∈ splitLines line text) :
    ∀ c ∈ raw, c ∈ line ∨ c ∈ text := by
  induction text generalizing line with
  | nil =>
    rw [splitLines] at h
    split at h
    · cases h
    · rw [List.mem_singleton.mp h]
      exact fun c hc => .inl hc
  | cons d text ih =>
    rw [splitLines] at h
    split at h
    · rcases List.mem_cons.mp h with rfl | hmem
      · exact fun c hc => .inl hc
      · intro c hc
        rcases ih hmem c hc with hnil | htext
        · cases hnil
        · exact .inr (List.mem_cons_of_mem _ htext)
    · intro c hc
      rcases ih h c hc with hline | htext
      · rcases List.mem_append.mp hline with hmem | hmem
        · exact .inl hmem
        · rw [List.mem_singleton.mp hmem]
          exact .inr List.mem_cons_self
      · exact .inr (List.mem_cons_of_mem _ htext)

/-- A blank line has no entry. -/
theorem lineEntry_of_strip_nil (h : strip text = []) : lineEntry env text = none := by
  simp [lineEntry, h]

/-- Behind a comment mark nothing is read. -/
theorem lineEntry_of_mark {mark : Char} (hmark : mark ∈ ['#', ';']) (h : (strip text).head? = some mark) :
    lineEntry env text = none := by
  simp only [List.mem_cons, List.not_mem_nil, or_false] at hmark
  rcases hmark with rfl | rfl <;> simp [lineEntry, h]

/-- White space lists nothing. -/
theorem entriesOf_blank (h : ∀ c ∈ text, isPySpace c = true) : entriesOf env text = [] := by
  refine List.filterMap_eq_nil_iff.mpr fun raw hraw => lineEntry_of_strip_nil (strip_blank fun c hc => ?_)
  rcases mem_of_mem_splitLines hraw c hc with hnil | htext
  · cases hnil
  · exact h c htext

/-- A text on one line has the entry of that line. -/
theorem entriesOf_plain (h : ∀ c ∈ text, isLineEnd c = false) :
    entriesOf env text = (lineEntry env text).toList := by
  rw [entriesOf, splitLines_of_plain h, List.nil_append]
  cases text with
  | nil => rfl
  | cons c text => cases hentry : lineEntry env (c :: text) <;> simp [hentry]

/-- The entries of a text, line by line. -/
theorem entriesOf_append {c : Char} (hc : isLineEnd c = true) (text rest : List Char) :
    entriesOf env (text ++ c :: rest) = entriesOf env text ++ entriesOf env rest :=
  filterMap_splitLines_append (lineEntry_of_strip_nil rfl) hc [] text rest

/-- A newline stands behind each line but the last. -/
theorem intercalate_text_cons (line next : MetricsLine) (lines : List MetricsLine) :
    ['\n'].intercalate ((line :: next :: lines).map MetricsLine.text) =
      line.text ++ '\n' :: ['\n'].intercalate ((next :: lines).map MetricsLine.text) := by
  simp [List.intercalate]

end Pieces

section Entries

variable {env : Env} {e : EntryLine}

/-- A word begins with no white space. -/
theorem EntryWord.head {word : List Char} (h : EntryWord word) :
    ∀ c ∈ word.head?, isPySpace c = false := fun c hc =>
  (isEntryChar_iff.mp (h.chars c (List.mem_of_mem_head? hc))).1

/-- It ends with none. -/
theorem EntryWord.last {word : List Char} (h : EntryWord word) :
    ∀ c ∈ word.getLast?, isPySpace c = false := fun c hc =>
  (isEntryChar_iff.mp (h.chars c (List.mem_of_mem_getLast? hc))).1

/-- A separator that stands between name and value splits the line there. -/
theorem partitionAt_middle {name front back value : List Char} {sep : Char} (hname : sep ∉ name)
    (hfront : sep ∉ front) :
    partitionAt sep (name ++ (front ++ sep :: back) ++ value) = some (name ++ front, back ++ value) := by
  have hline : name ++ (front ++ sep :: back) ++ value = (name ++ front) ++ sep :: (back ++ value) := by simp
  have hbefore : ∀ c ∈ name ++ front, (c != sep) = true := by
    intro c hc
    rcases List.mem_append.mp hc with hmem | hmem
    · exact bne_iff_ne.mpr fun heq => hname (heq ▸ hmem)
    · exact bne_iff_ne.mpr fun heq => hfront (heq ▸ hmem)
  have htake : ((name ++ front) ++ sep :: (back ++ value)).takeWhile (· != sep) = name ++ front := by
    rw [List.takeWhile_append_of_pos hbefore]
    simp
  have hdrop : ((name ++ front) ++ sep :: (back ++ value)).dropWhile (· != sep) = sep :: (back ++ value) := by
    rw [List.dropWhile_append_of_pos hbefore]
    simp
  rw [hline, partitionAt, if_pos (by simp), htake, hdrop, List.tail_cons]

/-- A line without the separator is not parted. -/
theorem partitionAt_none {sep : Char} {line : List Char} (h : sep ∉ line) : partitionAt sep line = none :=
  if_neg (by simpa using h)

/-- The first separator that a well formed entry holds stands between name and value, with white space only
around it. -/
theorem middle_split (hpads : IsPad e.afterName ∧ IsPad e.beforeValue) : ∃ front sep back,
    e.middle = front ++ sep :: back ∧ sep ∉ front ∧ (∀ c ∈ front ++ back, isPySpace c = true) ∧
      ((sep = '=') ∨ (sep = ',' ∧ '=' ∉ e.middle) ∨ (sep = '\t' ∧ '=' ∉ e.middle ∧ ',' ∉ e.middle) ∨
        (sep = ' ' ∧ '=' ∉ e.middle ∧ ',' ∉ e.middle ∧ '\t' ∉ e.middle)) := by
  obtain ⟨hafter, hbefore⟩ := hpads
  have hpad : ∀ c ∈ e.afterName ++ e.beforeValue, isPySpace c = true := by
    intro c hc
    rcases List.mem_append.mp hc with hmem | hmem
    · exact (hafter c hmem).1
    · exact (hbefore c hmem).1
  have hnot : ∀ sep, isPySpace sep = false → sep ∉ e.afterName ∧ sep ∉ e.beforeValue := by
    intro sep hsep
    constructor <;> intro hmem
    · exact absurd (hpad sep (List.mem_append_left _ hmem)) (by rw [hsep]; decide)
    · exact absurd (hpad sep (List.mem_append_right _ hmem)) (by rw [hsep]; decide)
  -- the space and the tab forms may hold both characters, and the tab is tried first
  have hwhite : isPySpace e.form.sep = true → ∃ front sep back, e.middle = front ++ sep :: back ∧ sep ∉ front ∧
      (∀ c ∈ front ++ back, isPySpace c = true) ∧ ((sep = '\t' ∨ (sep = e.form.sep ∧ '\t' ∉ e.middle)) ∧
        '=' ∉ e.middle ∧ ',' ∉ e.middle) := by
    intro hsep
    have hspace : ∀ c ∈ e.middle, isPySpace c = true := by
      intro c hc
      rcases List.mem_append.mp hc with hmem | hmem
      · exact (hafter c hmem).1
      · rcases List.mem_cons.mp hmem with rfl | hmem
        · exact hsep
        · exact (hbefore c hmem).1
    have hseps : '=' ∉ e.middle ∧ ',' ∉ e.middle :=
      ⟨fun hmem => absurd (hspace _ hmem) (by decide), fun hmem => absurd (hspace _ hmem) (by decide)⟩
    have hsplit : ∀ sep ∈ e.middle, ∃ front back, e.middle = front ++ sep :: back ∧ sep ∉ front ∧
        ∀ c ∈ front ++ back, isPySpace c = true := by
      intro sep hmem
      obtain ⟨front, back, heq, hfront⟩ := List.eq_append_cons_of_mem hmem
      refine ⟨front, back, heq, hfront, fun c hc => hspace c ?_⟩
      rw [heq]
      rcases List.mem_append.mp hc with hc | hc
      · exact List.mem_append_left _ hc
      · exact List.mem_append_right _ (List.mem_cons_of_mem _ hc)
    by_cases htab : '\t' ∈ e.middle
    · obtain ⟨front, back, heq, hfront, hback⟩ := hsplit '\t' htab
      exact ⟨front, '\t', back, heq, hfront, hback, .inl rfl, hseps⟩
    · obtain ⟨front, back, heq, hfront, hback⟩ := hsplit e.form.sep (by simp [EntryLine.middle])
      exact ⟨front, e.form.sep, back, heq, hfront, hback, .inr ⟨rfl, htab⟩, hseps⟩
  cases hform : e.form with
  | equals =>
    have hmiddle : e.middle = e.afterName ++ '=' :: e.beforeValue := by rw [EntryLine.middle, hform, EntryForm.sep]
    exact ⟨e.afterName, '=', e.beforeValue, hmiddle, (hnot '=' rfl).1, hpad, .inl rfl⟩
  | comma =>
    have hmiddle : e.middle = e.afterName ++ ',' :: e.beforeValue := by rw [EntryLine.middle, hform, EntryForm.sep]
    refine ⟨e.afterName, ',', e.beforeValue, hmiddle, (hnot ',' rfl).1, hpad, .inr (.inl ⟨rfl, ?_⟩)⟩
    simp [hmiddle, hnot '=' rfl]
  | tab =>
    obtain ⟨front, sep, back, heq, hfront, hback, htab, hseps⟩ := hwhite (by rw [hform]; rfl)
    refine ⟨front, sep, back, heq, hfront, hback, .inr (.inr (.inl ⟨?_, hseps⟩))⟩
    rw [hform] at htab
    exact htab.elim id And.left
  | space =>
    obtain ⟨front, sep, back, heq, hfront, hback, hsep, hseps⟩ := hwhite (by rw [hform]; rfl)
    rw [hform] at hsep
    rcases hsep with htab | ⟨hspace, htab⟩
    · exact ⟨front, sep, back, heq, hfront, hback, .inr (.inr (.inl ⟨htab, hseps⟩))⟩
    · exact ⟨front, sep, back, heq, hfront, hback, .inr (.inr (.inr ⟨hspace, hseps.1, hseps.2, htab⟩))⟩

/-- The parser splits an entry where it was meant to be split, up to white space. -/
theorem findSome_partitionAt (hname : EntryWord e.name) (hvalue : EntryWord e.value)
    (hpads : IsPad e.afterName ∧ IsPad e.beforeValue) : ∃ front back,
    ['=', ',', '\t', ' '].findSome? (fun sep => partitionAt sep (e.name ++ e.middle ++ e.value)) =
        some (e.name ++ front, back ++ e.value) ∧
      (∀ c ∈ front, isPySpace c = true) ∧ ∀ c ∈ back, isPySpace c = true := by
  obtain ⟨front, sep, back, hmiddle, hfront, hwhite, hcases⟩ := middle_split hpads
  have hword : ∀ {word : List Char}, EntryWord word → ∀ c ∈ ['=', ',', '\t', ' '], c ∉ word := by
    intro word hword c hc hmem
    have hchar := isEntryChar_iff.mp (hword.chars c hmem)
    simp only [List.mem_cons, List.not_mem_nil, or_false] at hc
    rcases hc with rfl | rfl | rfl | rfl
    · exact hchar.2.1 rfl
    · exact hchar.2.2 rfl
    · exact absurd hchar.1 (by decide)
    · exact absurd hchar.1 (by decide)
  have hnone : ∀ c ∈ ['=', ',', '\t', ' '], c ∉ e.middle →
      partitionAt c (e.name ++ e.middle ++ e.value) = none := by
    intro c hc hmiddle
    refine partitionAt_none ?_
    simp [hword hname c hc, hword hvalue c hc, hmiddle]
  have hsome : sep ∈ ['=', ',', '\t', ' '] →
      partitionAt sep (e.name ++ e.middle ++ e.value) = some (e.name ++ front, back ++ e.value) := by
    intro hsep
    rw [hmiddle]
    exact partitionAt_middle (hword hname sep hsep) hfront
  refine ⟨front, back, ?_, fun c hc => hwhite c (List.mem_append_left _ hc), fun c hc =>
    hwhite c (List.mem_append_right _ hc)⟩
  rcases hcases with rfl | ⟨rfl, hequals⟩ | ⟨rfl, hequals, hcomma⟩ | ⟨rfl, hequals, hcomma, htab⟩
  · rw [List.findSome?_cons, hsome (by decide)]
  · rw [List.findSome?_cons, hnone '=' (by decide) hequals, List.findSome?_cons, hsome (by decide)]
  · rw [List.findSome?_cons, hnone '=' (by decide) hequals, List.findSome?_cons, hnone ',' (by decide) hcomma,
      List.findSome?_cons, hsome (by decide)]
  · rw [List.findSome?_cons, hnone '=' (by decide) hequals, List.findSome?_cons, hnone ',' (by decide) hcomma,
      List.findSome?_cons, hnone '\t' (by decide) htab, List.findSome?_cons, hsome (by decide)]

/-- An entry is read as it is meant. -/
theorem lineEntry_entry (h : (MetricsLine.entry e).WellFormed env) :
    lineEntry env (MetricsLine.entry e).text = (MetricsLine.entry e).listed env := by
  obtain ⟨hname, hvalue, hpads, -⟩ := h
  have hindent : ∀ c ∈ e.indent, isPySpace c = true := fun c hc => (hpads e.indent (by simp) c hc).1
  have htrailing : ∀ c ∈ e.trailing, isPySpace c = true := fun c hc => (hpads e.trailing (by simp) c hc).1
  have hinner : IsPad e.afterName ∧ IsPad e.beforeValue := ⟨hpads _ (by simp), hpads _ (by simp)⟩
  have hnil : ∀ c ∈ ([] : List Char), isPySpace c = true := by simp
  obtain ⟨c, name, hcons⟩ := List.exists_cons_of_ne_nil hname.word.nonempty
  have hstrip : strip (MetricsLine.entry e).text = e.name ++ e.middle ++ e.value := by
    refine strip_padded hindent htrailing ?_ ?_ ?_
    · rw [List.append_assoc, List.head?_append_of_ne_nil _ hname.word.nonempty]
      exact hname.word.head
    · rw [List.getLast?_append_of_ne_nil _ hvalue.nonempty]
      exact hvalue.last
    · simp [hcons]
  have hfront : c ≠ '#' ∧ c ≠ ';' := by
    have hc := hname.front c (by rw [hcons]; rfl)
    simp only [List.mem_cons, not_or] at hc
    exact ⟨hc.1, hc.2.1⟩
  obtain ⟨front, back, hfind, hfrontWhite, hbackWhite⟩ := findSome_partitionAt hname.word hvalue hinner
  have hkey : strip (e.name ++ front) = e.name := by
    have hstripped := strip_padded hnil hfrontWhite hname.word.head hname.word.last hname.word.nonempty
    rwa [List.nil_append] at hstripped
  have hval : strip (back ++ e.value) = e.value := by
    have hstripped := strip_padded hbackWhite hnil hvalue.head hvalue.last hvalue.nonempty
    rwa [List.append_nil] at hstripped
  have hcheck : ((e.name ++ e.middle ++ e.value).isEmpty || (e.name ++ e.middle ++ e.value).head? == some '#' ||
      (e.name ++ e.middle ++ e.value).head? == some ';') = false := by
    simp [hcons, hfront]
  unfold lineEntry
  rw [hstrip]
  dsimp only
  rw [hcheck, hfind]
  simp only [Bool.false_eq_true, if_false, Option.bind_eq_bind, Option.bind_some, hkey, hval, MetricsLine.listed]
  cases env.floatOf (String.ofList e.value) <;> rfl

/-- The line of an entry lists this entry and nothing else. -/
theorem entriesOf_entry (h : (MetricsLine.entry e).WellFormed env) :
    entriesOf env (MetricsLine.entry e).text = ((MetricsLine.entry e).listed env).toList := by
  rw [entriesOf_plain, lineEntry_entry h]
  obtain ⟨hname, hvalue, hpads, -⟩ := h
  have hword : ∀ {word : List Char}, EntryWord word → ∀ c ∈ word, isLineEnd c = false := by
    intro word hword c hc
    have hspace := (isEntryChar_iff.mp (hword.chars c hc)).1
    by_contra hend
    exact absurd (isPySpace_of_isLineEnd (Bool.of_not_eq_false hend)) (by simp [hspace])
  have hsep : isLineEnd e.form.sep = false := by cases e.form <;> rfl
  intro c hc
  simp only [MetricsLine.text, EntryLine.middle, List.mem_append, List.mem_cons] at hc
  rcases hc with (hindent | (hname' | hafter | rfl | hbefore) | hvalue') | htrailing
  · exact (hpads e.indent (by simp) c hindent).2
  · exact hword hname.word c hname'
  · exact (hpads e.afterName (by simp) c hafter).2
  · exact hsep
  · exact (hpads e.beforeValue (by simp) c hbefore).2
  · exact hword hvalue c hvalue'
  · exact (hpads e.trailing (by simp) c htrailing).2

end Entries

section Files

variable {env : Env} {line : MetricsLine} {lines : List MetricsLine} {key : String} {x : Json}

/-- What stands behind white space begins the stripped text. -/
theorem head_strip {indent text : List Char} {c : Char} (hindent : ∀ c ∈ indent, isPySpace c = true)
    (hc : isPySpace c = false) : (strip (indent ++ c :: text)).head? = some c := by
  have hstart : (indent ++ c :: text).dropWhile isPySpace = c :: text := by
    rw [dropWhile_pad hindent]
    exact dropWhile_of_head (by simp [hc])
  have hlast : (c :: text).reverse.dropWhile isPySpace = text.reverse.dropWhile isPySpace ++ [c] := by
    rw [List.reverse_cons, List.dropWhile_append]
    split
    · next hnil => simp [hc, List.isEmpty_iff.mp hnil]
    · rfl
  rw [strip, hstart, hlast]
  simp

/-- A mark is no white space. -/
theorem isPySpace_mark {mark : Char} (h : mark ∈ ['#', ';']) : isPySpace mark = false := by
  simp only [List.mem_cons, List.not_mem_nil, or_false] at h
  rcases h with rfl | rfl <;> rfl

/-- A comment without a line end in it lists nothing. -/
theorem entriesOf_comment {indent text : List Char} {mark : Char} (hindent : IsPad indent)
    (hmark : mark ∈ ['#', ';']) (htext : ∀ c ∈ text, isLineEnd c = false) :
    entriesOf env (indent ++ mark :: text) = [] := by
  have hspace := isPySpace_mark hmark
  have hplain : ∀ c ∈ indent ++ mark :: text, isLineEnd c = false := by
    intro c hc
    rcases List.mem_append.mp hc with hmem | hmem
    · exact (hindent c hmem).2
    · rcases List.mem_cons.mp hmem with rfl | hmem
      · by_contra hend
        exact absurd (isPySpace_of_isLineEnd (Bool.of_not_eq_false hend)) (by simp [hspace])
      · exact htext c hmem
  rw [entriesOf_plain hplain, lineEntry_of_mark hmark (head_strip (fun c hc => (hindent c hc).1) hspace)]
  rfl

/-- A text without line ends hides nothing. -/
theorem hiddenPart_of_plain {text : List Char} (h : ∀ c ∈ text, isLineEnd c = false) : hiddenPart text = [] := by
  have hdrop : text.dropWhile (fun c => !isLineEnd c) = [] :=
    List.dropWhile_eq_nil_iff.mpr fun c hc => by simp [h c hc]
  rw [hiddenPart, hdrop, List.tail_nil]

/-- The parser skips a comment up to the first line end in it, and reads on from there. -/
theorem entriesOf_hiddenPart {indent text : List Char} {mark : Char} (hindent : IsPad indent)
    (hmark : mark ∈ ['#', ';']) :
    entriesOf env (indent ++ mark :: text) = entriesOf env (hiddenPart text) := by
  have hfront : ∀ c ∈ text.takeWhile (fun c => !isLineEnd c), isLineEnd c = false := fun c hc => by
    simpa using List.mem_takeWhile_imp hc
  have hsplit := List.takeWhile_append_dropWhile (p := fun c => !isLineEnd c) (l := text)
  cases hrest : text.dropWhile (fun c => !isLineEnd c) with
  | nil =>
    rw [hrest, List.append_nil] at hsplit
    rw [hsplit] at hfront
    rw [entriesOf_comment hindent hmark hfront, hiddenPart_of_plain hfront]
    rfl
  | cons c rest =>
    have hc : isLineEnd c = true := by
      have hhead := List.head?_dropWhile_not (fun c => !isLineEnd c) text
      rw [hrest] at hhead
      simpa using hhead
    have htext : indent ++ mark :: text =
        (indent ++ mark :: text.takeWhile (fun c => !isLineEnd c)) ++ c :: rest := by
      conv_lhs => rw [← hsplit, hrest]
      simp
    rw [htext, entriesOf_append hc, entriesOf_comment hindent hmark hfront, List.nil_append, hiddenPart, hrest,
      List.tail_cons]

/-- The parser reads the entries that stand in a line. -/
theorem entriesOf_text (h : line.WellFormed env) : entriesOf env line.text = line.entries env := by
  cases line with
  | entry e => exact entriesOf_entry h
  | comment indent mark text => exact entriesOf_hiddenPart h.1 h.2.1
  | blank text => exact entriesOf_blank fun c hc => (h c hc).1

/-- The entries that stand in a file. -/
theorem map_listing (env : Env) (lines : List MetricsLine) :
    (listing env lines).map Prod.snd = lines.flatMap fun line => line.entries env := by
  rw [listing, List.map_flatMap]
  simp [Function.comp_def]

/-- What is read in a file is what stands in its lines. -/
theorem entriesOf_fileText (hlines : ∀ line ∈ lines, line.WellFormed env) :
    entriesOf env (fileText lines).toList = (listing env lines).map Prod.snd := by
  rw [map_listing, fileText, String.toList_ofList]
  induction lines with
  | nil => rfl
  | cons line lines ih =>
    obtain ⟨hline, hrest⟩ := List.forall_mem_cons.mp hlines
    cases lines with
    | nil => simp [List.intercalate, entriesOf_text hline]
    | cons next lines =>
      rw [intercalate_text_cons, entriesOf_append rfl, entriesOf_text hline, ih hrest]
      rfl

/-- The unmarked entries of a listing are those that the file lists. -/
theorem mem_listing_false {e : String × Json} :
    (false, e) ∈ listing env lines ↔ e ∈ lines.filterMap (MetricsLine.listed env) := by
  simp only [listing, List.mem_flatMap, List.mem_map, List.mem_filterMap]
  constructor
  · rintro ⟨line, hmem, e', he, hpair⟩
    obtain ⟨hline, rfl⟩ := Prod.mk.inj hpair
    cases line with
    | comment indent mark text => cases hline
    | _ => exact ⟨_, hmem, Option.mem_toList.mp he⟩
  · rintro ⟨line, hmem, he⟩
    cases line with
    | comment indent mark text => cases he
    | _ => exact ⟨_, hmem, e, Option.mem_toList.mpr he, rfl⟩

/-- What a file hides stands in its comments. -/
theorem mem_listing_true {e : String × Json} : (true, e) ∈ listing env lines ↔
    ∃ indent mark text, MetricsLine.comment indent mark text ∈ lines ∧ e ∈ entriesOf env (hiddenPart text) := by
  simp only [listing, List.mem_flatMap, List.mem_map]
  constructor
  · rintro ⟨line, hmem, e', he, hpair⟩
    obtain ⟨hline, rfl⟩ := Prod.mk.inj hpair
    cases line with
    | comment indent mark text => exact ⟨indent, mark, text, hmem, he⟩
    | _ => cases hline
  · rintro ⟨indent, mark, text, hmem, he⟩
    exact ⟨_, hmem, e, he, rfl⟩

/-- A line does not make a file JSON. -/
theorem front_append (h : line.WellFormed env) {rest : List Char}
    (hrest : ∀ c ∈ (rest.dropWhile isPySpace).head?, c ∉ ['{', '[']) :
    ∀ c ∈ ((line.text ++ rest).dropWhile isPySpace).head?, c ∉ ['{', '['] := by
  -- behind white space there is a character that is none and begins no JSON
  have hbehind : ∀ {indent : List Char} {first : Char} (text : List Char), IsPad indent → isPySpace first = false →
      first ∉ ['{', '['] → ∀ c ∈ ((indent ++ first :: text).dropWhile isPySpace).head?, c ∉ ['{', '['] := by
    intro indent first text hindent hspace hfirst c hc
    rw [dropWhile_pad (fun c hc => (hindent c hc).1), dropWhile_of_head (by simp [hspace])] at hc
    exact Option.some.inj hc ▸ hfirst
  cases line with
  | entry e =>
    obtain ⟨hname, -, hpads, -⟩ := h
    obtain ⟨first, name, hcons⟩ := List.exists_cons_of_ne_nil hname.word.nonempty
    have hhead : first ∈ e.name.head? := by rw [hcons]; rfl
    have hfirst := hname.front first hhead
    have htext : (MetricsLine.entry e).text ++ rest =
        e.indent ++ first :: (name ++ e.middle ++ e.value ++ e.trailing ++ rest) := by
      simp [MetricsLine.text, hcons]
    rw [htext]
    refine hbehind _ (hpads e.indent (by simp)) (hname.word.head first hhead) ?_
    simp only [List.mem_cons, List.not_mem_nil, or_false, not_or] at hfirst ⊢
    exact hfirst.2.2
  | comment indent mark text =>
    obtain ⟨hindent, hmark, -⟩ := h
    have htext : (MetricsLine.comment indent mark text).text ++ rest = indent ++ mark :: (text ++ rest) := by
      simp [MetricsLine.text]
    rw [htext]
    refine hbehind _ hindent (isPySpace_mark hmark) ?_
    simp only [List.mem_cons, List.not_mem_nil, or_false] at hmark
    rcases hmark with rfl | rfl <;> decide
  | blank text =>
    rw [MetricsLine.text, dropWhile_pad fun c hc => (h c hc).1]
    exact hrest

/-- A text file is not taken for JSON. -/
theorem not_isJsonText (hlines : ∀ line ∈ lines, line.WellFormed env) : ¬ IsJsonText (fileText lines) := by
  have hfront : ∀ c ∈ (((fileText lines).toList).dropWhile isPySpace).head?, c ∉ ['{', '['] := by
    rw [fileText, String.toList_ofList]
    induction lines with
    | nil => simp [List.intercalate]
    | cons line lines ih =>
      obtain ⟨hline, hrest⟩ := List.forall_mem_cons.mp hlines
      cases lines with
      | nil =>
        have hone : ∀ c ∈ ((line.text ++ []).dropWhile isPySpace).head?, c ∉ ['{', '['] :=
          front_append hline (by simp)
        simpa [List.intercalate] using hone
      | cons next lines =>
        rw [intercalate_text_cons]
        exact front_append hline (ih hrest)
  rintro (hbrace | hbracket)
  · exact hfront _ hbrace (by decide)
  · exact hfront _ hbracket (by decide)

end Files

section Agreement

variable {env : Env} {metrics : List (String × ℚ)} {lines : List MetricsLine} {text key : String} {x : Json}

/-- The last element with a property has none behind it. -/
theorem getLast?_filter_eq_some {α : Type} {p : α → Bool} {l : List α} {a : α} :
    (l.filter p).getLast? = some a ↔
      p a = true ∧ ∃ before after, l = before ++ a :: after ∧ ∀ b ∈ after, p b = false := by
  rw [List.getLast?_eq_head?_reverse, ← List.filter_reverse, List.head?_filter, List.find?_eq_some_iff_append]
  refine and_congr_right fun _ => ?_
  constructor
  · rintro ⟨after, before, heq, hafter⟩
    refine ⟨before.reverse, after.reverse, ?_, fun b hb => ?_⟩
    · rw [← List.reverse_reverse l, heq]
      simp
    · simpa using hafter b (List.mem_reverse.mp hb)
  · rintro ⟨before, after, rfl, hafter⟩
    refine ⟨after.reverse, before.reverse, by simp, fun b hb => ?_⟩
    simpa using hafter b (List.mem_reverse.mp hb)

/-- The last that is read under a key is parsed, in a comment or not. -/
theorem mem_parseText_fileText (hlines : ∀ line ∈ lines, line.WellFormed env) :
    (key, x) ∈ parseText env (fileText lines) ↔ StandsLast env lines key x := by
  have hread : (splitLines [] (fileText lines).toList).filterMap (lineEntry env) =
      (listing env lines).map Prod.snd := entriesOf_fileText hlines
  rw [mem_parseText, TextEntry, hread, List.getLast?_map, Option.map_eq_some_iff, List.filter_map,
    List.getLast?_map]
  constructor
  · rintro ⟨e, he, rfl⟩
    obtain ⟨⟨mark, e'⟩, hlast, rfl⟩ := Option.map_eq_some_iff.mp he
    obtain ⟨hkey, before, after, heq, hafter⟩ := getLast?_filter_eq_some.mp hlast
    obtain rfl : e'.1 = key := by simpa using hkey
    exact ⟨before, mark, after, heq, fun e he => by simpa using hafter e he⟩
  · rintro ⟨before, mark, after, heq, hafter⟩
    have hlast := getLast?_filter_eq_some (p := (fun e : String × Json => decide (e.1 = key)) ∘ Prod.snd).mpr
      ⟨by simp, before, after, heq, fun e he => by simpa using hafter e he⟩
    exact ⟨(key, x), by rw [hlast]; rfl, rfl⟩

/-- The JSON file is parsed to the metrics. -/
theorem mem_extractMetrics_members (env : Env) : (key, x) ∈
    extractMetrics env (.obj [("metrics", .obj (asMembers metrics))]) ↔ (key, x) ∈ asMembers metrics := by
  have hsource : metricsSource (.obj [("metrics", .obj (asMembers metrics))]) = .obj (asMembers metrics) := rfl
  have hfinite : ∀ e ∈ asMembers metrics, numberOf env e.2 = some e.2 ∧ IsFinite e.2 := by
    intro e he
    obtain ⟨m, -, rfl⟩ := List.mem_map.mp he
    exact ⟨rfl, trivial⟩
  rw [mem_extractMetrics]
  constructor
  · rintro ⟨members, e, heq, hmem, hnumber, -⟩
    obtain rfl := Json.obj.inj (hsource.symm.trans heq)
    obtain rfl : e = x := Option.some.inj ((hfinite _ hmem).1.symm.trans hnumber)
    exact hmem
  · exact fun hmem => ⟨_, x, hsource, hmem, hfinite _ hmem⟩

/-- The JSON file is parsed to its metrics. -/
theorem parseResultFile_json (h : MetricsJson env metrics text) : parseResultFile env text =
    .ok [("metrics", .obj (extractMetrics env (.obj [("metrics", .obj (asMembers metrics))])))] := by
  have hfirst : ((text.toList.dropWhile isPySpace).head? == some '{' ||
      (text.toList.dropWhile isPySpace).head? == some '[') = true := by
    rw [h.front]
    rfl
  unfold parseResultFile
  rw [if_pos hfirst, h.loads]
  rfl

/-- Two entries of a name are one. -/
theorem MetricsText.value_unique (h : MetricsText env metrics lines) {y : Json} (hx : (key, x) ∈ asMembers metrics)
    (hy : (key, y) ∈ asMembers metrics) : x = y := by
  obtain ⟨m, hm, heq⟩ := List.mem_map.mp hx
  obtain ⟨n, hn, heq'⟩ := List.mem_map.mp hy
  obtain ⟨rfl, rfl⟩ := Prod.mk.inj heq
  obtain ⟨hname, rfl⟩ := Prod.mk.inj heq'
  rw [List.inj_on_of_nodup_map h.distinct hn hm hname]

/-- A name that stands in a file stands there a last time. -/
theorem exists_standsLast {mark : Bool} (h : (mark, key, x) ∈ listing env lines) :
    ∃ y, StandsLast env lines key y := by
  cases hlast : ((listing env lines).filter fun e => decide (e.2.1 = key)).getLast? with
  | none =>
    have hnone := List.getLast?_eq_none_iff.mp hlast
    have hmem : (mark, key, x) ∈ (listing env lines).filter fun e => decide (e.2.1 = key) :=
      List.mem_filter.mpr ⟨h, by simp⟩
    rw [hnone] at hmem
    cases hmem
  | some e =>
    obtain ⟨hkey, before, after, heq, hafter⟩ := getLast?_filter_eq_some.mp hlast
    obtain rfl : e.2.1 = key := by simpa using hkey
    exact ⟨e.2.2, before, e.1, after, heq, fun e he => by simpa using hafter e he⟩

/-- Where comments are harmless, what stands last under a name is its metric. -/
theorem CommentsHarmless.last (hharmless : CommentsHarmless env metrics lines)
    (h : MetricsText env metrics lines) (hlast : StandsLast env lines key x) : (key, x) ∈ asMembers metrics := by
  obtain ⟨before, mark, after, heq, hafter⟩ := hlast
  cases mark with
  | true =>
    rcases hharmless before key x after heq with ⟨e, he, hkey⟩ | hmem
    · exact absurd hkey (hafter e he)
    · exact hmem
  | false =>
    have hmem : (false, key, x) ∈ listing env lines := by
      rw [heq]
      exact List.mem_append_right _ List.mem_cons_self
    exact h.once.mem_iff.mp (mem_listing_false.mp hmem)

/-- Comments in which no line ends are harmless. -/
theorem commentsHarmless_of_plain (hplain : ∀ indent mark text, MetricsLine.comment indent mark text ∈ lines →
    ∀ c ∈ text, isLineEnd c = false) : CommentsHarmless env metrics lines := by
  intro before key x after heq
  have hmem : (true, key, x) ∈ listing env lines := by
    rw [heq]
    exact List.mem_append_right _ List.mem_cons_self
  obtain ⟨indent, mark, text, hline, hhidden⟩ := mem_listing_true.mp hmem
  rw [hiddenPart_of_plain (hplain indent mark text hline)] at hhidden
  cases hhidden

/-- Two files are parsed to the same if what stands last under a name in the one is the member in the other. -/
theorem sameMetrics_iff (h : MetricsText env metrics lines) (hjson : MetricsJson env metrics text) :
    SameMetrics (parseResultFile env (fileText lines)) (parseResultFile env text) ↔
      ∀ key x, StandsLast env lines key x ↔ (key, x) ∈ asMembers metrics := by
  have htext : parseResultFile env (fileText lines) = _ := parseResultFile_text (not_isJsonText h.wellFormed)
  have hloaded := parseResultFile_json hjson
  simp only [← mem_parseText_fileText h.wellFormed, ← mem_extractMetrics_members env]
  constructor
  · rintro ⟨parsed, parsed', hparsed, hparsed', hsame⟩
    obtain rfl : parseText env (fileText lines) = parsed := by simpa using htext.symm.trans hparsed
    obtain rfl : extractMetrics env _ = parsed' := by simpa using hloaded.symm.trans hparsed'
    exact hsame
  · exact fun hsame => ⟨_, _, htext, hloaded, hsame⟩

/-- The text file and the JSON file of the same metrics are parsed to the same exactly if what the comments of
the text file hide does not matter. -/
theorem metrics_files_agree_iff (h : MetricsText env metrics lines) (hjson : MetricsJson env metrics text) :
    SameMetrics (parseResultFile env (fileText lines)) (parseResultFile env text) ↔
      CommentsHarmless env metrics lines := by
  rw [sameMetrics_iff h hjson]
  constructor
  · intro hsame before key x after heq
    by_cases hlater : ∃ e ∈ after, e.2.1 = key
    · exact .inl hlater
    · exact .inr ((hsame key x).mp ⟨before, true, after, heq, fun e he hkey => hlater ⟨e, he, hkey⟩⟩)
  · intro hharmless key x
    constructor
    · exact hharmless.last h
    · intro hmem
      -- the metric's name stands there a last time, and then with the metric's own value
      obtain ⟨y, hlast⟩ := exists_standsLast (mem_listing_false.mpr (h.once.mem_iff.mpr hmem))
      obtain rfl := h.value_unique hmem (hharmless.last h hlast)
      exact hlast

end Agreement

section Examples

/-- The metrics of the samples. -/
def sampleMetrics : List (String × ℚ) := [("gain", 3 / 2), ("pm", 60), ("ugb", 2000000), ("noise", 1 / 4)]

/-- The same metrics as JSON. -/
def sampleMetricsJson : String :=
  "\x7b\"metrics\": \x7b\"gain\": 1.5, \"pm\": 60.0, \"ugb\": 2000000.0, \"noise\": 0.25\x7d\x7d"

/-- `json.loads` reads the sample file, and `float` its values. -/
def sampleMetricsEnv : Env :=
  { Env.sample with
    jsonLoads := fun text =>
      if text = sampleMetricsJson then .ok (.obj [("metrics", .obj (asMembers sampleMetrics))])
      else .error (.valueError (.text "Expecting value" []))
    floatOf := fun text =>
      [("1.5", 3 / 2), ("60", 60), ("2e6", 2000000), ("0.25", 1 / 4)].lookup text |>.map .finite }

/-- A comment, and the metrics behind it in all forms, with a blank line among them. -/
def sampleMetricsLines (comment : List Char) : List MetricsLine :=
  [.comment [] '#' comment,
    .entry ⟨[], "gain".toList, [' '], .equals, [' '], "1.5".toList, []⟩,
    .entry ⟨['\t'], "pm".toList, [], .comma, [], "60".toList, []⟩,
    .blank [' '],
    .entry ⟨[], "ugb".toList, [], .tab, [], "2e6".toList, [' ']⟩,
    .entry ⟨[' '], "noise".toList, [], .space, [' '], "0.25".toList, []⟩]

/-- A comment with a form feed in it, and an entry behind that. -/
def sampleHiding : List Char :=
  [' ', 's', 'w', 'e', 'p', 't', '\x0c', 'o', 'f', 'f', 's', 'e', 't', ' ', '1', '.', '5']

/-- That text is the JSON file of the metrics. -/
theorem metricsJson_sample : MetricsJson sampleMetricsEnv sampleMetrics sampleMetricsJson :=
  ⟨by rfl, by simp [sampleMetricsEnv]⟩

/-- A word of entry characters. -/
theorem entryWord_of_all {word : List Char} (hne : word ≠ []) (h : word.all isEntryChar = true) : EntryWord word :=
  ⟨hne, List.all_eq_true.mp h⟩

/-- The lines are a text file of the metrics. -/
theorem metricsText_sample {comment : List Char} (hnewline : '\n' ∉ comment) (hreturn : '\r' ∉ comment) :
    MetricsText sampleMetricsEnv sampleMetrics (sampleMetricsLines comment) := by
  refine ⟨by simp [sampleMetrics], ?_, .of_eq (by rfl)⟩
  have hname : ∀ name ∈ ["gain", "pm", "ugb", "noise"], MetricName name.toList := by
    simp only [List.forall_mem_cons]
    exact ⟨metricName_of_word (by decide) (Base.forall_mem_of_all (by decide)),
      metricName_of_word (by decide) (Base.forall_mem_of_all (by decide)),
      metricName_of_word (by decide) (Base.forall_mem_of_all (by decide)),
      metricName_of_word (by decide) (Base.forall_mem_of_all (by decide)), List.forall_mem_nil _⟩
  have hpad : ∀ s ∈ [[], [' '], ['\t']], IsPad s := by
    simp [IsPad]
    decide
  have hblank : isPySpace ' ' = true ∧ ' ' ≠ '\n' ∧ ' ' ≠ '\r' := by decide
  simp only [sampleMetricsLines, List.forall_mem_cons, MetricsLine.WellFormed]
  refine ⟨⟨hpad [] (by simp), by simp, hnewline, hreturn⟩,
    ⟨hname "gain" (by simp), entryWord_of_all (by decide) (by rfl),
    ?_, by rfl⟩, ⟨hname "pm" (by simp), entryWord_of_all (by decide) (by rfl), ?_, by rfl⟩,
    ⟨hblank, List.forall_mem_nil _⟩,
    ⟨hname "ugb" (by simp), entryWord_of_all (by decide) (by rfl), ?_, by rfl⟩,
    ⟨hname "noise" (by simp), entryWord_of_all (by decide) (by rfl), ?_, by rfl⟩, List.forall_mem_nil _⟩ <;>
    simp [hpad]

/-- Both files of four metrics agree. -/
theorem metrics_files_agree_iff_sample :
    SameMetrics (parseResultFile sampleMetricsEnv (fileText (sampleMetricsLines [' ', 'a', '=', '1'])))
      (parseResultFile sampleMetricsEnv sampleMetricsJson) := by
  refine (metrics_files_agree_iff (metricsText_sample (by simp) (by simp)) metricsJson_sample).mpr ?_
  refine commentsHarmless_of_plain fun indent mark text hmem => ?_
  obtain ⟨-, -, rfl⟩ : indent = [] ∧ mark = '#' ∧ text = [' ', 'a', '=', '1'] := by
    simpa [sampleMetricsLines] using hmem
  exact Base.forall_mem_of_all (by rfl)

/-- Behind a form feed in a comment an entry is read, which is none of the metrics. -/
theorem comment_hides_entry : MetricsText sampleMetricsEnv sampleMetrics (sampleMetricsLines sampleHiding) ∧
    MetricsJson sampleMetricsEnv sampleMetrics sampleMetricsJson ∧
    ¬ SameMetrics (parseResultFile sampleMetricsEnv (fileText (sampleMetricsLines sampleHiding)))
      (parseResultFile sampleMetricsEnv sampleMetricsJson) := by
  have htext : MetricsText sampleMetricsEnv sampleMetrics (sampleMetricsLines sampleHiding) :=
    metricsText_sample (by simp [sampleHiding]) (by simp [sampleHiding])
  have hlisting : listing sampleMetricsEnv (sampleMetricsLines sampleHiding) =
      (true, "offset", .float (.finite (3 / 2))) :: (asMembers sampleMetrics).map (false, ·) := by rfl
  refine ⟨htext, metricsJson_sample, fun hsame => ?_⟩
  have hmem := ((sameMetrics_iff htext metricsJson_sample).mp hsame "offset" (.float (.finite (3 / 2)))).mp
    ⟨[], true, _, hlisting, by simp [asMembers, sampleMetrics]⟩
  simp [asMembers, sampleMetrics] at hmem

end Examples

end VirtuosoFlow.Tunnel
