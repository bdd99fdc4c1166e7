import Mathlib.Data.List.Basic

/-!
# The reader of SKILL calls

A SKILL text of calls: names with their arguments in parentheses, strings, keywords and atoms. A
text that splices strings between quotes is read as the calls that were meant exactly when no
string holds a quote or a backslash.
-/

namespace VirtuosoFlow.Plugin.CallText

section Literals

/-- An octal digit. -/
def isOctal (c : Char) : Bool := '0' ≤ c && c ≤ '7'

/-- What a backslash and a letter stand for in a string. -/
def unescape : Char → Char
  | 'n' => '\n'
  | 't' => '\t'
  | 'r' => '\r'
  | 'b' => '\x08'
  | 'f' => '\x0c'
  | 'v' => '\x0b'
  | c => c

/-- What a backslash and the text after it stand for, and how much of that text belongs to it: a
line that goes on, three octal digits, or one character. -/
def escapeOf : List Char → List Char × ℕ
  | [] => ([], 1)
  | '\n' :: _ => ([], 1)
  | a :: b :: c :: _ =>
    if isOctal a && isOctal b && isOctal c then
      ([Char.ofNat (((a.toNat - 48) * 8 + (b.toNat - 48)) * 8 + (c.toNat - 48))], 3)
    else ([unescape a], 1)
  | a :: _ => ([unescape a], 1)

/-- The characters of a string up to its closing quote, behind the rest of an escape. -/
def readLiteral : ℕ → List Char → Option (List Char × List Char)
  | _, [] => none
  | used + 1, _ :: rest => readLiteral used rest
  | 0, c :: rest =>
    if c = '"' then some ([], rest)
    else if c = '\\' then (readLiteral (escapeOf rest).2 rest).map fun r => ((escapeOf rest).1 ++ r.1, r.2)
    else (readLiteral 0 rest).map fun r => (c :: r.1, r.2)

/-- A string that can stand between quotes as it is. -/
def Quotable (s : List Char) : Prop := '"' ∉ s ∧ '\\' ∉ s

variable {s u w rest r : List Char} {c : Char}

/-- A quote ends a literal. -/
theorem readLiteral_quote (rest : List Char) : readLiteral 0 ('"' :: rest) = some ([], rest) := by
  simp [readLiteral]

/-- A character that is neither a quote nor an escape stands for itself. -/
theorem readLiteral_plain (hquote : c ≠ '"') (hescape : c ≠ '\\') (rest : List Char) :
    readLiteral 0 (c :: rest) = (readLiteral 0 rest).map fun r => (c :: r.1, r.2) := by
  simp [readLiteral, hquote, hescape]

/-- An escaped quote is a quote. -/
theorem readLiteral_escaped_quote (rest : List Char) :
    readLiteral 0 ('\\' :: '"' :: rest) = (readLiteral 0 rest).map fun r => ('"' :: r.1, r.2) := by
  have hescape : escapeOf ('"' :: rest) = (['"'], 1) := by
    rcases rest with _ | ⟨b, _ | ⟨c, rest⟩⟩ <;> rfl
  rw [readLiteral, if_neg (by decide), if_pos rfl, hescape]
  rfl

/-- An escape of one character. -/
theorem readLiteral_escape_one {out : List Char} (h : escapeOf (c :: rest) = (out, 1)) :
    readLiteral 0 ('\\' :: c :: rest) = (readLiteral 0 rest).map fun r => (out ++ r.1, r.2) := by
  rw [readLiteral, if_neg (by decide), if_pos rfl, h]
  rfl

/-- An escape takes at least one character of a text, no quote, and stands for at most one character. -/
def EscapeRead (text rest : List Char) : Prop :=
  ∃ used left out, text = used ++ left ∧ used ≠ [] ∧ '"' ∉ used ∧ (out = [] ∨ ∃ d, out = [d]) ∧
    readLiteral 0 ('\\' :: (text ++ '"' :: rest)) =
      (readLiteral 0 (left ++ '"' :: rest)).map fun r => (out ++ r.1, r.2)

/-- A backslash and what it escapes are read as one character or none. -/
theorem escapeRead (hquote : c ≠ '"') (u rest : List Char) : EscapeRead (c :: u) rest := by
  have hone : ∀ out, (out = [] ∨ ∃ d, out = [d]) → escapeOf (c :: (u ++ '"' :: rest)) = (out, 1) →
      EscapeRead (c :: u) rest := fun out hout h =>
    ⟨[c], u, out, rfl, List.cons_ne_nil _ _, by simpa using hquote.symm, hout, readLiteral_escape_one h⟩
  by_cases hline : c = '\n'
  · subst hline
    exact hone [] (.inl rfl) rfl
  · rcases u with _ | ⟨d, _ | ⟨e, u⟩⟩
    · refine hone [unescape c] (.inr ⟨_, rfl⟩) ?_
      cases rest with
      | nil => simp [escapeOf]
      | cons f rest => simp [escapeOf, isOctal]
    · refine hone [unescape c] (.inr ⟨_, rfl⟩) ?_
      simp [escapeOf, isOctal]
    · by_cases hoctal : (isOctal c && isOctal d && isOctal e) = true
      · have hquotes : '"' ∉ [c, d, e] := by
          have hnot : isOctal '"' = false := rfl
          simp only [Bool.and_eq_true] at hoctal
          intro hmem
          simp only [List.mem_cons, List.not_mem_nil, or_false] at hmem
          rcases hmem with rfl | rfl | rfl <;> simp [hnot] at hoctal
        let out := [Char.ofNat (((c.toNat - 48) * 8 + (d.toNat - 48)) * 8 + (e.toNat - 48))]
        have hescape : escapeOf (c :: d :: e :: (u ++ '"' :: rest)) = (out, 3) := by
          simp [escapeOf, hoctal, out]
        refine ⟨[c, d, e], u, out, rfl, List.cons_ne_nil _ _, hquotes, .inr ⟨_, rfl⟩, ?_⟩
        show readLiteral 0 ('\\' :: c :: d :: e :: (u ++ '"' :: rest)) = _
        rw [readLiteral, if_neg (by decide), if_pos rfl, hescape]
        rfl
      · refine hone [unescape c] (.inr ⟨_, rfl⟩) ?_
        simp [escapeOf, hoctal]

/-- What is left to read behind an escape: the whole value, or all but its first character. -/
theorem readLiteral_escaped {value : List Char} (hquote : c ≠ '"')
    (h : readLiteral 0 ('\\' :: (c :: u ++ '"' :: rest)) = some (value, r)) :
    ∃ used left, c :: u = used ++ left ∧ used ≠ [] ∧ '"' ∉ used ∧
      (readLiteral 0 (left ++ '"' :: rest) = some (value, r) ∨
        ∃ d v, value = d :: v ∧ readLiteral 0 (left ++ '"' :: rest) = some (v, r)) := by
  obtain ⟨used, left, out, hsplit, hused, hfree, hout, hread⟩ := @escapeRead c hquote u rest
  rw [hread] at h
  obtain ⟨⟨v, r'⟩, hv, heq⟩ := Option.map_eq_some_iff.mp h
  obtain ⟨rfl, rfl⟩ := Prod.mk.inj heq
  refine ⟨used, left, hsplit, hused, hfree, ?_⟩
  rcases hout with rfl | ⟨d, rfl⟩
  · exact .inl hv
  · exact .inr ⟨d, v, rfl, hv⟩

/-- No value begins with another character than the quote that is escaped at the front of its text. -/
theorem readLiteral_escaped_quote_ne {text value : List Char} {d : Char} (hd : d ≠ '"') :
    readLiteral 0 ('\\' :: '"' :: text) ≠ some (d :: value, r) := by
  intro h
  rw [readLiteral_escaped_quote] at h
  obtain ⟨v, -, heq⟩ := Option.map_eq_some_iff.mp h
  exact hd (List.cons.inj (Prod.mk.inj heq).1).1.symm

/-- Once an escape has made the value lag behind the text, it never catches up. -/
theorem readLiteral_lags (n : ℕ) : ∀ {u w : List Char}, u.length ≤ n → w ≠ [] → '"' ∉ w →
    readLiteral 0 (u ++ '"' :: rest) ≠ some (w ++ u, r) := by
  induction n with
  | zero =>
    intro u w hlen hw hquote h
    obtain rfl := List.eq_nil_of_length_eq_zero (Nat.le_zero.mp hlen)
    rw [List.nil_append, readLiteral_quote, List.append_nil] at h
    exact hw (Prod.mk.inj (Option.some.inj h)).1.symm
  | succ n ih =>
    intro u w hlen hw hquote h
    obtain ⟨d, w, rfl⟩ := List.exists_cons_of_ne_nil hw
    have hd : d ≠ '"' := fun hd => hquote (hd ▸ List.mem_cons_self)
    have hw' : '"' ∉ w := fun hmem => hquote (List.mem_cons_of_mem _ hmem)
    cases u with
    | nil =>
      rw [List.nil_append, readLiteral_quote] at h
      cases (Prod.mk.inj (Option.some.inj h)).1
    | cons c u =>
      by_cases hc : c = '"'
      · subst hc
        rw [List.cons_append, readLiteral_quote] at h
        cases (Prod.mk.inj (Option.some.inj h)).1
      · by_cases hescape : c = '\\'
        · subst hescape
          cases u with
          | nil => exact readLiteral_escaped_quote_ne hd h
          | cons e u =>
            have he : e ≠ '"' := by
              rintro rfl
              exact readLiteral_escaped_quote_ne hd h
            obtain ⟨used, left, hsplit, hused, hfree, hread⟩ := readLiteral_escaped he h
            have hleft : left.length ≤ n := by
              have hlength := congrArg List.length hsplit
              have hpos := List.length_pos_of_ne_nil hused
              simp only [List.length_cons, List.length_append] at hlength hlen
              omega
            have hlag : ∀ w' : List Char, '"' ∉ w' → '"' ∉ w' ++ '\\' :: used := by
              intro w' hquote'
              simp only [List.mem_append, List.mem_cons, not_or]
              exact ⟨hquote', by decide, hfree⟩
            rcases hread with hread | ⟨d', v, hvalue, hread⟩
            · refine ih hleft (by simp) (hlag (d :: w) hquote) (hread.trans ?_)
              rw [hsplit]
              simp
            · obtain ⟨-, rfl⟩ := List.cons.inj hvalue
              refine ih hleft (by simp) (hlag w hw') (hread.trans ?_)
              rw [hsplit]
              simp
        · rw [List.cons_append, readLiteral_plain hc hescape] at h
          obtain ⟨⟨v, r'⟩, hv, heq⟩ := Option.map_eq_some_iff.mp h
          obtain ⟨hvalue, rfl⟩ := Prod.mk.inj heq
          obtain ⟨rfl, rfl⟩ := List.cons.inj hvalue
          refine ih (u := u) (w := w ++ [c]) (by simpa using hlen) (by simp) ?_ (hv.trans (by simp))
          simp only [List.mem_append, List.mem_singleton, not_or]
          exact ⟨hw', Ne.symm hc⟩

/-- A string between quotes is read as itself exactly when it has no quote and no backslash. -/
theorem readLiteral_eq_iff (s rest r : List Char) :
    readLiteral 0 (s ++ '"' :: rest) = some (s, r) ↔ Quotable s ∧ r = rest := by
  induction s with
  | nil => simp [readLiteral_quote, Quotable, eq_comm]
  | cons c s ih =>
    by_cases hc : c = '"'
    · subst hc
      refine iff_of_false (fun h => ?_) fun h => h.1.1 List.mem_cons_self
      rw [List.cons_append, readLiteral_quote] at h
      cases (Prod.mk.inj (Option.some.inj h)).1
    · by_cases hescape : c = '\\'
      · subst hescape
        refine iff_of_false (fun h => ?_) fun h => h.1.2 List.mem_cons_self
        cases s with
        | nil => exact readLiteral_escaped_quote_ne hc h
        | cons e s =>
          have he : e ≠ '"' := by
            rintro rfl
            exact readLiteral_escaped_quote_ne hc h
          obtain ⟨used, left, hsplit, hused, hfree, hread⟩ := readLiteral_escaped he h
          rcases hread with hread | ⟨d, v, hvalue, hread⟩
          · have hlag : readLiteral 0 (left ++ '"' :: rest) = some ('\\' :: used ++ left, r) := by
              rw [hread, hsplit]
              rfl
            exact readLiteral_lags left.length (Nat.le_refl _) (by simp) (by simp [hfree]) hlag
          · obtain ⟨-, rfl⟩ := List.cons.inj hvalue
            have hlag : readLiteral 0 (left ++ '"' :: rest) = some (used ++ left, r) := by rw [hread, hsplit]
            exact readLiteral_lags left.length (Nat.le_refl _) hused hfree hlag
      · have hquotable : Quotable (c :: s) ↔ Quotable s := by
          simp [Quotable, Ne.symm hc, Ne.symm hescape]
        rw [List.cons_append, readLiteral_plain hc hescape, hquotable, ← ih]
        constructor
        · intro h
          obtain ⟨⟨v, r'⟩, hv, heq⟩ := Option.map_eq_some_iff.mp h
          obtain ⟨hvalue, rfl⟩ := Prod.mk.inj heq
          obtain ⟨-, rfl⟩ := List.cons.inj hvalue
          exact hv
        · intro h
          rw [h]
          rfl

end Literals

/-- Expressions that follow one another: strings, keywords, atoms and calls. -/
inductive Exprs where
  | nil
  | str (value : List Char) (rest : Exprs)
  | key (name : List Char) (rest : Exprs)
  | atom (name : List Char) (rest : Exprs)
  | call (fn : List Char) (inner rest : Exprs)
  deriving DecidableEq

section Reader

/-- The characters of names. -/
def isNameChar (c : Char) : Bool := c.isAlphanum || c == '_'

/-- White space. -/
def isBlank (c : Char) : Bool := c == ' ' || c == '\t' || c == '\n' || c == '\r'

/-- What follows white space and comments. -/
def skip (comment : Bool) : List Char → List Char
  | [] => []
  | c :: rest =>
    if comment then skip (c != '\n') rest
    else if isBlank c then skip false rest
    else if c = ';' then skip true rest
    else c :: rest

/-- What begins with a name, given how arguments and further expressions are read. A parenthesis right
behind the name opens its arguments. -/
def readNamed (readArgs readMore : List Char → Option (Exprs × List Char)) (name : List Char) :
    List Char → Option (Exprs × List Char)
  | '(' :: rest => do
    let (inner, rest) ← readArgs rest
    let (more, rest) ← readMore rest
    return (.call name inner more, rest)
  | rest => do
    let (more, rest) ← readMore rest
    return (.atom name more, rest)

/-- The expressions up to the closing parenthesis, or up to the end of the text. Operators, quoted data and
everything else that is not built of calls is not read. -/
def readExprs : ℕ → Bool → List Char → Option (Exprs × List Char)
  | 0, _, _ => none
  | n + 1, inside, text =>
    match skip false text with
    | [] => if inside then none else some (.nil, [])
    | c :: rest =>
      if c = ')' then if inside then some (.nil, rest) else none
      else if c = '"' then do
        let (value, rest) ← readLiteral 0 rest
        let (more, rest) ← readExprs n inside rest
        return (.str value more, rest)
      else if c = '?' then
        if rest.takeWhile isNameChar = [] then none
        else do
          let (more, after) ← readExprs n inside (rest.dropWhile isNameChar)
          return (.key (rest.takeWhile isNameChar) more, after)
      else if !isNameChar c then none
      else
        readNamed (readExprs n true) (readExprs n inside) ((c :: rest).takeWhile isNameChar)
          ((c :: rest).dropWhile isNameChar)

/-- All expressions of a text. -/
def readText (text : List Char) : Option Exprs := (readExprs (text.length + 1) false text).map Prod.fst

end Reader

section Spelling

/-- A blank between two expressions. -/
def gap : Exprs → List Char → List Char
  | .nil, text => text
  | _, text => ' ' :: text

/-- Expressions as a template writes them: strings as they are between quotes, one blank between two
expressions, and around the arguments of some functions. -/
def spell (pad : List Char → List Char) : Exprs → List Char
  | .nil => []
  | .str value rest => '"' :: (value ++ '"' :: gap rest (spell pad rest))
  | .key name rest => '?' :: (name ++ gap rest (spell pad rest))
  | .atom name rest => name ++ gap rest (spell pad rest)
  | .call fn inner rest => fn ++ '(' :: (pad fn ++ spell pad inner ++ pad fn ++ ')' :: gap rest (spell pad rest))

/-- All strings can stand between quotes as they are. -/
def Exprs.Quotable : Exprs → Prop
  | .nil => True
  | .str value rest => CallText.Quotable value ∧ rest.Quotable
  | .key _ rest => rest.Quotable
  | .atom _ rest => rest.Quotable
  | .call _ inner rest => inner.Quotable ∧ rest.Quotable

/-- Names are names. -/
def IsIdentifier (name : List Char) : Prop := name ≠ [] ∧ ∀ c ∈ name, isNameChar c = true

/-- A name of name characters is an identifier. -/
theorem isIdentifier_of_all {name : List Char} (hne : name ≠ []) (h : name.all isNameChar = true) :
    IsIdentifier name :=
  ⟨hne, List.all_eq_true.mp h⟩

/-- All names are names. -/
def Exprs.Named : Exprs → Prop
  | .nil => True
  | .str _ rest => rest.Named
  | .key name rest => IsIdentifier name ∧ rest.Named
  | .atom name rest => IsIdentifier name ∧ rest.Named
  | .call fn inner rest => IsIdentifier fn ∧ inner.Named ∧ rest.Named

/-- The number of expressions. -/
def Exprs.size : Exprs → ℕ
  | .nil => 0
  | .str _ rest => rest.size + 1
  | .key _ rest => rest.size + 1
  | .atom _ rest => rest.size + 1
  | .call _ inner rest => inner.size + rest.size + 1

variable {pad : List Char → List Char} {n : ℕ} {inside : Bool} {text rest r : List Char}

/-- Blanks in front do not matter. -/
theorem readExprs_blanks {blanks : List Char} (h : ∀ c ∈ blanks, isBlank c = true) (n : ℕ) (inside : Bool)
    (text : List Char) : readExprs n inside (blanks ++ text) = readExprs n inside text := by
  have hskip : skip false (blanks ++ text) = skip false text := by
    induction blanks with
    | nil => rfl
    | cons c blanks ih =>
      obtain ⟨hc, hrest⟩ := List.forall_mem_cons.mp h
      rw [List.cons_append, skip, if_neg (by simp), if_pos hc, ih hrest]
  cases n with
  | zero => rfl
  | succ n => rw [readExprs, readExprs, hskip]

/-- Nor does a gap. -/
theorem readExprs_gap (e : Exprs) (n : ℕ) (inside : Bool) (text : List Char) :
    readExprs n inside (gap e text) = readExprs n inside text := by
  have hblank : ∀ c ∈ [' '], isBlank c = true := by simp [isBlank]
  cases e with
  | nil => rfl
  | _ => exact readExprs_blanks hblank n inside text

/-- What follows an expression comes after its gap. -/
theorem gap_append (e : Exprs) (text rest : List Char) : gap e text ++ rest = gap e (text ++ rest) := by
  cases e <;> rfl

/-- The closing parenthesis ends the arguments. -/
theorem readExprs_close (n : ℕ) (rest : List Char) :
    readExprs (n + 1) true (')' :: rest) = some (.nil, rest) := by
  simp [readExprs, skip, isBlank]

/-- A quote begins a string. -/
theorem readExprs_quote (n : ℕ) (inside : Bool) (text : List Char) :
    readExprs (n + 1) inside ('"' :: text) = (readLiteral 0 text).bind fun v =>
      (readExprs n inside v.2).bind fun m => some (.str v.1 m.1, m.2) := by
  have hskip : skip false ('"' :: text) = '"' :: text := by simp [skip, isBlank]
  rw [readExprs, hskip]
  rfl

/-- A text that does not go on with a name or its arguments. -/
def EndsName (text : List Char) : Prop := ∀ c ∈ text.head?, isNameChar c = false ∧ c ≠ '('

/-- A name is taken as far as it goes. -/
theorem takeWhile_name {name : List Char} (h : IsIdentifier name)
    (hend : ∀ c ∈ text.head?, isNameChar c = false) :
    (name ++ text).takeWhile isNameChar = name ∧ (name ++ text).dropWhile isNameChar = text := by
  have htext : text.takeWhile isNameChar = [] ∧ text.dropWhile isNameChar = text := by
    cases text with
    | nil => exact ⟨rfl, rfl⟩
    | cons c text => simp [hend c rfl]
  rw [List.takeWhile_append_of_pos h.2, List.dropWhile_append_of_pos h.2, htext.1, htext.2, List.append_nil]
  exact ⟨rfl, rfl⟩

/-- A question mark begins a keyword. -/
theorem readExprs_key {name : List Char} (h : IsIdentifier name) (hend : EndsName text) (n : ℕ) (inside : Bool) :
    readExprs (n + 1) inside ('?' :: (name ++ text)) =
      (readExprs n inside text).bind fun m => some (.key name m.1, m.2) := by
  have hskip : skip false ('?' :: (name ++ text)) = '?' :: (name ++ text) := by simp [skip, isBlank]
  obtain ⟨htake, hdrop⟩ := takeWhile_name h fun c hc => (hend c hc).1
  rw [readExprs, hskip]
  dsimp only
  rw [if_neg (by decide), if_neg (by decide), if_pos rfl, htake, hdrop, if_neg h.1]
  rfl

/-- What begins with a name is a call or an atom. -/
theorem readExprs_name {name : List Char} (h : IsIdentifier name)
    (hend : ∀ c ∈ text.head?, isNameChar c = false)
    (n : ℕ) (inside : Bool) : readExprs (n + 1) inside (name ++ text) =
      readNamed (readExprs n true) (readExprs n inside) name text := by
  obtain ⟨htake, hdrop⟩ := takeWhile_name h hend
  obtain ⟨c, name, rfl⟩ := List.exists_cons_of_ne_nil h.1
  have hc : isNameChar c = true := h.2 c List.mem_cons_self
  have hne : ∀ d, isNameChar d = false → c ≠ d := by
    rintro d hd rfl
    rw [hc] at hd
    cases hd
  have hskip : skip false (c :: (name ++ text)) = c :: (name ++ text) := by
    have hblank : isBlank c = false := by
      simp [isBlank, hne ' ' rfl, hne '\t' rfl, hne '\n' rfl, hne '\r' rfl]
    rw [skip, if_neg (by decide), if_neg (by simp [hblank]), if_neg (hne ';' rfl)]
  rw [List.cons_append] at htake hdrop ⊢
  rw [readExprs, hskip]
  dsimp only
  rw [if_neg (hne ')' rfl), if_neg (hne '"' rfl), if_neg (hne '?' rfl), if_neg (by simp [hc]), htake, hdrop]

/-- A name is a call when a parenthesis follows. -/
theorem readExprs_call {fn : List Char} (h : IsIdentifier fn) (n : ℕ) (inside : Bool) (text : List Char) :
    readExprs (n + 1) inside (fn ++ '(' :: text) = (readExprs n true text).bind fun i =>
      (readExprs n inside i.2).bind fun m => some (.call fn i.1 m.1, m.2) := by
  rw [readExprs_name h (fun c hc => by rw [← Option.some.inj hc]; rfl)]
  rfl

/-- A name is an atom when it ends otherwise. -/
theorem readExprs_atom {name : List Char} (h : IsIdentifier name) (hend : EndsName text) (n : ℕ) (inside : Bool) :
    readExprs (n + 1) inside (name ++ text) =
      (readExprs n inside text).bind fun m => some (.atom name m.1, m.2) := by
  rw [readExprs_name h fun c hc => (hend c hc).1]
  unfold readNamed
  split
  · exact absurd rfl (hend '(' rfl).2
  · rfl

/-- What follows an expression inside parentheses ends a name. -/
theorem endsName_gap (e : Exprs) (rest : List Char) {blanks : List Char} (h : ∀ c ∈ blanks, isBlank c = true) :
    EndsName (gap e (spell pad e ++ (blanks ++ ')' :: rest))) := by
  have hblank : ∀ c, isBlank c = true → isNameChar c = false ∧ c ≠ '(' := by
    intro c hc
    simp only [isBlank, Bool.or_eq_true, beq_iff_eq] at hc
    rcases hc with ((rfl | rfl) | rfl) | rfl <;> decide
  cases e with
  | nil =>
    intro c hc
    cases blanks with
    | nil =>
      rw [← Option.some.inj hc]
      decide
    | cons d blanks =>
      rw [← Option.some.inj hc]
      exact hblank d (h d List.mem_cons_self)
  | _ =>
    intro c hc
    rw [← Option.some.inj hc]
    decide

/-- Expressions inside parentheses are read as they were meant exactly when every string can stand between
quotes as it is. -/
theorem readExprs_spell (hpad : ∀ fn, ∀ c ∈ pad fn, isBlank c = true) {e : Exprs} (hnamed : e.Named) :
    ∀ {n : ℕ} {blanks rest r : List Char}, e.size < n → (∀ c ∈ blanks, isBlank c = true) →
      (readExprs n true (spell pad e ++ (blanks ++ ')' :: rest)) = some (e, r) ↔ e.Quotable ∧ r = rest) := by
  induction e with
  | nil =>
    intro n blanks rest r hn hblanks
    obtain ⟨n, rfl⟩ := Nat.exists_eq_succ_of_ne_zero (Nat.ne_of_gt hn)
    rw [spell, List.nil_append, readExprs_blanks hblanks, readExprs_close]
    simp [Exprs.Quotable, eq_comm]
  | str value more ih =>
    intro n blanks rest r hn hblanks
    obtain ⟨n, rfl⟩ := Nat.exists_eq_succ_of_ne_zero (Nat.ne_zero_of_lt hn)
    have hmore := @ih hnamed n blanks rest r (Nat.lt_of_succ_lt_succ hn) hblanks
    rw [spell, List.cons_append, List.append_assoc, List.cons_append, gap_append, readExprs_quote]
    rw [Exprs.Quotable, and_assoc, ← hmore]
    constructor
    · intro h
      obtain ⟨⟨v, after⟩, hv, h⟩ := Option.bind_eq_some_iff.mp h
      obtain ⟨⟨m, r'⟩, hm, h⟩ := Option.bind_eq_some_iff.mp h
      obtain ⟨hexprs, rfl⟩ := Prod.mk.inj (Option.some.inj h)
      obtain ⟨rfl, rfl⟩ := Exprs.str.inj hexprs
      obtain ⟨hquotable, rfl⟩ := (readLiteral_eq_iff _ _ _).mp hv
      exact ⟨hquotable, (readExprs_gap _ _ _ _).symm.trans hm⟩
    · rintro ⟨hquotable, hm⟩
      rw [(readLiteral_eq_iff _ _ _).mpr ⟨hquotable, rfl⟩, Option.bind_some, readExprs_gap, hm]
      rfl
  | key name more ih =>
    intro n blanks rest r hn hblanks
    obtain ⟨n, rfl⟩ := Nat.exists_eq_succ_of_ne_zero (Nat.ne_zero_of_lt hn)
    have hmore := @ih hnamed.2 n blanks rest r (Nat.lt_of_succ_lt_succ hn) hblanks
    rw [spell, List.cons_append, List.append_assoc, gap_append,
      readExprs_key hnamed.1 (endsName_gap more rest hblanks), readExprs_gap, Exprs.Quotable, ← hmore]
    constructor
    · intro h
      obtain ⟨⟨m, r'⟩, hm, h⟩ := Option.bind_eq_some_iff.mp h
      obtain ⟨hexprs, rfl⟩ := Prod.mk.inj (Option.some.inj h)
      obtain ⟨-, rfl⟩ := Exprs.key.inj hexprs
      exact hm
    · intro hm
      rw [hm]
      rfl
  | atom name more ih =>
    intro n blanks rest r hn hblanks
    obtain ⟨n, rfl⟩ := Nat.exists_eq_succ_of_ne_zero (Nat.ne_zero_of_lt hn)
    have hmore := @ih hnamed.2 n blanks rest r (Nat.lt_of_succ_lt_succ hn) hblanks
    rw [spell, List.append_assoc, gap_append,
      readExprs_atom hnamed.1 (endsName_gap more rest hblanks), readExprs_gap, Exprs.Quotable, ← hmore]
    constructor
    · intro h
      obtain ⟨⟨m, r'⟩, hm, h⟩ := Option.bind_eq_some_iff.mp h
      obtain ⟨hexprs, rfl⟩ := Prod.mk.inj (Option.some.inj h)
      obtain ⟨-, rfl⟩ := Exprs.atom.inj hexprs
      exact hm
    · intro hm
      rw [hm]
      rfl
  | call fn inner more ihInner ihMore =>
    intro n blanks rest r hn hblanks
    obtain ⟨n, rfl⟩ := Nat.exists_eq_succ_of_ne_zero (Nat.ne_zero_of_lt hn)
    have hsizes : inner.size < n ∧ more.size < n := by
      simp only [Exprs.size, Nat.succ_eq_add_one] at hn
      omega
    have hinner : ∀ after r',
        readExprs n true (spell pad inner ++ (pad fn ++ ')' :: after)) = some (inner, r') ↔
          inner.Quotable ∧ r' = after := fun after r' => ihInner hnamed.2.1 hsizes.1 (hpad fn)
    have hmore := @ihMore hnamed.2.2 n blanks rest r hsizes.2 hblanks
    have htext : spell pad (.call fn inner more) ++ (blanks ++ ')' :: rest) =
        fn ++ '(' :: (pad fn ++ (spell pad inner ++
          (pad fn ++ ')' :: gap more (spell pad more ++ (blanks ++ ')' :: rest))))) := by
      simp [spell, gap_append]
    rw [htext, readExprs_call hnamed.1, readExprs_blanks (hpad fn), Exprs.Quotable, and_assoc, ← hmore]
    constructor
    · intro h
      obtain ⟨⟨i, after⟩, hi, h⟩ := Option.bind_eq_some_iff.mp h
      obtain ⟨⟨m, r'⟩, hm, h⟩ := Option.bind_eq_some_iff.mp h
      obtain ⟨hexprs, rfl⟩ := Prod.mk.inj (Option.some.inj h)
      obtain ⟨-, rfl, rfl⟩ := Exprs.call.inj hexprs
      obtain ⟨hquotable, rfl⟩ := (hinner _ _).mp hi
      exact ⟨hquotable, (readExprs_gap _ _ _ _).symm.trans hm⟩
    · rintro ⟨hquotable, hm⟩
      rw [(hinner _ _).mpr ⟨hquotable, rfl⟩, Option.bind_some, readExprs_gap, hm]
      rfl

/-- There are no more expressions than characters. -/
theorem size_le_length {e : Exprs} (hnamed : e.Named) : e.size ≤ (spell pad e).length := by
  have hgap : ∀ (e : Exprs) (text : List Char), text.length ≤ (gap e text).length := by
    intro e text
    cases e <;> simp [gap]
  induction e with
  | nil => exact Nat.zero_le _
  | str value more ih =>
    have hmore := Nat.le_trans (ih hnamed) (hgap more _)
    simp only [spell, Exprs.size, List.length_cons, List.length_append]
    omega
  | key name more ih =>
    have hmore := Nat.le_trans (ih hnamed.2) (hgap more _)
    simp only [spell, Exprs.size, List.length_cons, List.length_append]
    omega
  | atom name more ih =>
    have hmore := Nat.le_trans (ih hnamed.2) (hgap more _)
    have hname := List.length_pos_of_ne_nil hnamed.1.1
    simp only [spell, Exprs.size, List.length_append]
    omega
  | call fn inner more ihInner ihMore =>
    have hinner := ihInner hnamed.2.1
    have hmore := Nat.le_trans (ihMore hnamed.2.2) (hgap more _)
    simp only [spell, Exprs.size, List.length_cons, List.length_append]
    omega

/-- A text of one call is read as that call exactly when every string can stand between quotes as it is. -/
theorem readText_spell (hpad : ∀ fn, ∀ c ∈ pad fn, isBlank c = true) {fn : List Char} {inner : Exprs}
    (hnamed : (Exprs.call fn inner .nil).Named) :
    readText (spell pad (.call fn inner .nil)) = some (.call fn inner .nil) ↔ inner.Quotable := by
  have htext : spell pad (.call fn inner .nil) =
      fn ++ '(' :: (pad fn ++ (spell pad inner ++ (pad fn ++ ')' :: []))) := by
    simp [spell, gap]
  have hsize : inner.size < (spell pad (.call fn inner .nil)).length := by
    have hle := @size_le_length pad _ hnamed
    simp only [Exprs.size] at hle
    omega
  unfold readText
  generalize (spell pad (.call fn inner .nil)).length = n at hsize ⊢
  have hinner : ∀ r, readExprs n true (spell pad inner ++ (pad fn ++ ')' :: [])) = some (inner, r) ↔
      inner.Quotable ∧ r = [] := fun r => readExprs_spell hpad hnamed.2.1 hsize (hpad fn)
  have hend : readExprs n false [] = some (.nil, []) := by
    obtain ⟨n, rfl⟩ := Nat.exists_eq_succ_of_ne_zero (Nat.ne_zero_of_lt hsize)
    rfl
  rw [htext, readExprs_call hnamed.1, readExprs_blanks (hpad fn)]
  constructor
  · intro h
    obtain ⟨⟨e, r⟩, hread, rfl⟩ := Option.map_eq_some_iff.mp h
    obtain ⟨⟨i, after⟩, hi, hread⟩ := Option.bind_eq_some_iff.mp hread
    obtain ⟨⟨m, r'⟩, -, hread⟩ := Option.bind_eq_some_iff.mp hread
    obtain ⟨hexprs, -⟩ := Prod.mk.inj (Option.some.inj hread)
    obtain ⟨-, rfl, -⟩ := Exprs.call.inj hexprs
    exact ((hinner after).mp hi).1
  · intro hquotable
    rw [(hinner []).mpr ⟨hquotable, rfl⟩, Option.bind_some, hend]
    rfl

end Spelling

end VirtuosoFlow.Plugin.CallText
