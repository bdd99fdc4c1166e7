import VirtuosoFlow.Json
import Mathlib.Tactic.IntervalCases

/-!
# JSON texts

`json.loads` and `json.dumps` on texts, and the proof that a printed value is read
back. A printer is given by a style: how it escapes a character and what white space
it puts between tokens. Strings are sequences of Unicode scalar values: an escaped
surrogate without its partner is refused here.
-/

namespace VirtuosoFlow.JsonText

open VirtuosoFlow

section Scanner

/-- The white space between tokens. -/
def isSpace (c : Char) : Bool := c == ' ' || c == '\t' || c == '\n' || c == '\r'

/-- `WHITESPACE.match(s, end).end()`. -/
def skip (text : List Char) : List Char := text.dropWhile isSpace

/-- The value of a hexadecimal digit. -/
def hexValue? (c : Char) : Option ℕ :=
  if c.isDigit then some (c.toNat - 48)
  else if 'a' ≤ c ∧ c ≤ 'f' then some (c.toNat - 87)
  else if 'A' ≤ c ∧ c ≤ 'F' then some (c.toNat - 55)
  else none

/-- `_decode_uXXXX`: the code unit that four hexadecimal digits name. -/
def codeUnit : List Char → Option (ℕ × List Char)
  | a :: b :: c :: d :: rest =>
    match hexValue? a, hexValue? b, hexValue? c, hexValue? d with
    | some a, some b, some c, some d => some (a * 4096 + b * 256 + c * 16 + d, rest)
    | _, _, _, _ => none
  | _ => none

/-- What follows `\u`: one code unit, or the two of a surrogate pair. -/
def unicodeEscape (text : List Char) : Option (Char × List Char) :=
  match codeUnit text with
  | none => none
  | some (n, rest) =>
    if 0xd800 ≤ n ∧ n < 0xdc00 then
      match rest with
      | '\\' :: 'u' :: rest =>
        match codeUnit rest with
        | none => none
        | some (m, rest) =>
          if 0xdc00 ≤ m ∧ m < 0xe000 then
            some (Char.ofNat (0x10000 + (n - 0xd800) * 1024 + (m - 0xdc00)), rest)
          else none
      | _ => none
    else if 0xdc00 ≤ n ∧ n < 0xe000 then none
    else some (Char.ofNat n, rest)

/-- The escapes of one letter. -/
def letterEscape : Char → Option Char
  | '"' => some '"'
  | '\\' => some '\\'
  | '/' => some '/'
  | 'b' => some '\x08'
  | 'f' => some '\x0c'
  | 'n' => some '\n'
  | 'r' => some '\r'
  | 't' => some '\t'
  | _ => none

/-- One character of a string, before its closing quote; control characters must be escaped. -/
def character : List Char → Option (Char × List Char)
  | [] => none
  | c :: rest =>
    if c = '\\' then
      match rest with
      | [] => none
      | e :: rest => if e = 'u' then unicodeEscape rest else (letterEscape e).map (·, rest)
    else if c.toNat < 32 then none
    else some (c, rest)

/-- The characters of a string up to its closing quote. -/
def characters : ℕ → List Char → Option (List Char × List Char)
  | 0, _ => none
  | n + 1, text =>
    if text.head? = some '"' then some ([], text.tail)
    else match character text with
      | none => none
      | some (c, rest) => (characters n rest).map fun r => (c :: r.1, r.2)

/-- `scanstring`, after the opening quote. -/
def string (text : List Char) : Option (String × List Char) :=
  (characters (text.length + 1) text).map fun r => (String.ofList r.1, r.2)

/-- The sign of a number, if it has one. -/
def takeSign : List Char → List Char × List Char
  | '-' :: rest => (['-'], rest)
  | text => ([], text)

/-- The whole part of a number: `0`, or digits that do not start with `0`. -/
def takeWhole : List Char → Option (List Char × List Char)
  | [] => none
  | c :: rest =>
    if c = '0' then some (['0'], rest)
    else if c.isDigit then some (c :: rest.takeWhile Char.isDigit, rest.dropWhile Char.isDigit)
    else none

/-- Digits, of which there must be one; otherwise nothing is taken of the text. -/
def takeDigits (start text : List Char) (whole : List Char) : List Char × List Char :=
  if (text.takeWhile Char.isDigit).isEmpty then ([], whole)
  else (start ++ text.takeWhile Char.isDigit, text.dropWhile Char.isDigit)

/-- The fraction of a number, if it has one. -/
def takeFraction (text : List Char) : List Char × List Char :=
  if text.head? = some '.' then takeDigits ['.'] text.tail text else ([], text)

/-- The exponent of a number, if it has one. -/
def takeExponent : List Char → List Char × List Char
  | [] => ([], [])
  | e :: rest =>
    if e = 'e' ∨ e = 'E' then
      match rest with
      | [] => ([], [e])
      | s :: rest' =>
        if s = '+' ∨ s = '-' then takeDigits [e, s] rest' (e :: rest)
        else takeDigits [e] rest (e :: rest)
    else ([], e :: rest)

/-- Digits, at least one. -/
def Digits (text : List Char) : Prop := text ≠ [] ∧ ∀ c ∈ text, c.isDigit = true

/-- A sign. -/
def Sign (text : List Char) : Prop := text = [] ∨ text = ['-']

/-- A whole part. -/
def Whole (text : List Char) : Prop :=
  text = ['0'] ∨ ∃ c ds, text = c :: ds ∧ c ≠ '0' ∧ c.isDigit = true ∧ ∀ d ∈ ds, d.isDigit = true

/-- A fraction. -/
def Fraction (text : List Char) : Prop := ∃ ds, text = '.' :: ds ∧ Digits ds

/-- An exponent. -/
def Exponent (text : List Char) : Prop :=
  ∃ e s ds, text = e :: (s ++ ds) ∧ (e = 'e' ∨ e = 'E') ∧ (s = [] ∨ s = ['+'] ∨ s = ['-']) ∧ Digits ds

/-- The text of a number with a fraction or an exponent. -/
def FloatText (text : List Char) : Prop :=
  ∃ sign whole fraction exponent, text = sign ++ (whole ++ (fraction ++ exponent)) ∧ Sign sign ∧
    Whole whole ∧ (fraction = [] ∨ Fraction fraction) ∧ (exponent = [] ∨ Exponent exponent) ∧
    ¬ (fraction = [] ∧ exponent = [])

/-- How floats are read from and written to texts. A float is written as the text of a
number, and reading that gives the float again. -/
structure FloatFormat where
  /-- `float(s)` of a number with a fraction or an exponent. -/
  parse : List Char → PyFloat
  /-- `repr(x)` of a finite float. -/
  repr : ℚ → List Char
  repr_text : ∀ text q, parse text = .finite q → FloatText (repr q)
  parse_repr : ∀ text q, parse text = .finite q → parse (repr q) = .finite q

/-- A format that knows one float, for examples. -/
def FloatFormat.sample : FloatFormat where
  parse _ := .finite 0
  repr _ := ['0', '.', '0']
  repr_text _ _ _ := ⟨[], ['0'], ['.', '0'], [], rfl, .inl rfl, .inl rfl,
    .inr ⟨['0'], rfl, by simp, Base.forall_mem_of_all (by decide)⟩, .inl rfl, by simp⟩
  parse_repr _ _ h := h

variable (fmt : FloatFormat)

/-- `int(s)`, for the sign and the digits of a number. -/
def intOf (sign whole : List Char) : ℤ :=
  if sign = [] then Nat.ofDigitChars 10 whole 0 else -Nat.ofDigitChars 10 whole 0

/-- `NUMBER_RE.match` and the number it gives. -/
def number (text : List Char) : Option (Json × List Char) :=
  match takeWhole (takeSign text).2 with
  | none => none
  | some (whole, rest) =>
    let sign := (takeSign text).1
    let fraction := takeFraction rest
    let exponent := takeExponent fraction.2
    if fraction.1 = [] ∧ exponent.1 = [] then some (.int (intOf sign whole), exponent.2)
    else some (.float (fmt.parse (sign ++ whole ++ fraction.1 ++ exponent.1)), exponent.2)

/-- The words that stand for a value. -/
def words : List (List Char × Json) :=
  [("null".toList, .null), ("true".toList, .bool true), ("false".toList, .bool false),
    ("NaN".toList, .float .nan), ("Infinity".toList, .float (.infinite false)),
    ("-Infinity".toList, .float (.infinite true))]

/-- A word at the head of the text. -/
def word (text : List Char) : Option (Json × List Char) :=
  words.findSome? fun w => if w.1.isPrefixOf text then some (w.2, text.drop w.1.length) else none

mutual

/-- `scan_once`: the value at the head of a text, and what is left of the text. -/
def value : ℕ → List Char → Option (Json × List Char)
  | 0, _ => none
  | _ + 1, [] => none
  | n + 1, c :: rest =>
    if c = '"' then (string rest).map fun r => (.str r.1, r.2)
    else if c = '[' then
      if (skip rest).head? = some ']' then some (.arr [], (skip rest).tail)
      else match value n (skip rest) with
        | none => none
        | some (v, rest) => (items n rest).map fun r => (.arr (v :: r.1), r.2)
    else if c = '{' then
      if (skip rest).head? = some '}' then some (.obj [], (skip rest).tail)
      else match member n (skip rest) with
        | none => none
        | some (m, rest) => (members n rest).map fun r => (.obj (Obj.update [] (m :: r.1)), r.2)
    else match number fmt (c :: rest) with
      | some r => some r
      | none => word (c :: rest)

/-- The further elements of an array, up to its closing bracket. -/
def items : ℕ → List Char → Option (List Json × List Char)
  | 0, _ => none
  | n + 1, text =>
    match skip text with
    | [] => none
    | c :: rest =>
      if c = ']' then some ([], rest)
      else if c = ',' then
        match value n (skip rest) with
        | none => none
        | some (v, rest) => (items n rest).map fun r => (v :: r.1, r.2)
      else none

/-- A member of an object. -/
def member : ℕ → List Char → Option ((String × Json) × List Char)
  | 0, _ => none
  | _ + 1, [] => none
  | n + 1, c :: rest =>
    if c = '"' then
      match string rest with
      | none => none
      | some (k, rest) =>
        if (skip rest).head? = some ':' then
          (value n (skip (skip rest).tail)).map fun r => ((k, r.1), r.2)
        else none
    else none

/-- The further members of an object, up to its closing brace. -/
def members : ℕ → List Char → Option (List (String × Json) × List Char)
  | 0, _ => none
  | n + 1, text =>
    match skip text with
    | [] => none
    | c :: rest =>
      if c = '}' then some ([], rest)
      else if c = ',' then
        match member n (skip rest) with
        | none => none
        | some (m, rest) => (members n rest).map fun r => (m :: r.1, r.2)
      else none

end

/-- `json.loads(s)`; nothing where it raises `ValueError`. -/
def loads (text : List Char) : Option Json :=
  match value fmt (text.length + 1) (skip text) with
  | none => none
  | some (v, rest) => if skip rest = [] then some v else none

end Scanner

section Printer

/-- How a printer writes the characters of a string, and the white space it puts between
tokens, which may depend on the depth of nesting. -/
structure Style where
  /-- What is written for a character. -/
  escape : Char → List Char
  /-- The characters that strings may hold. -/
  plain : Char → Prop
  /-- What follows an opening bracket. -/
  opening : ℕ → List Char
  /-- What follows a comma. -/
  comma : ℕ → List Char
  /-- What precedes a closing bracket. -/
  closing : ℕ → List Char
  /-- What follows a colon. -/
  colon : List Char
  character_escape : ∀ c, plain c → ∀ rest, character (escape c ++ rest) = some (c, rest)
  escape_head : ∀ c, plain c → (escape c).head? ≠ some '"'
  opening_blank : ∀ d, ∀ c ∈ opening d, isSpace c = true
  comma_blank : ∀ d, ∀ c ∈ comma d, isSpace c = true
  closing_blank : ∀ d, ∀ c ∈ closing d, isSpace c = true
  colon_blank : ∀ c ∈ colon, isSpace c = true

variable (fmt : FloatFormat) (style : Style)

/-- `int.__repr__`. -/
def intText (n : ℤ) : List Char :=
  if n < 0 then '-' :: Nat.toDigits 10 n.natAbs else Nat.toDigits 10 n.natAbs

/-- The text of a float. -/
def floatText : PyFloat → List Char
  | .finite q => fmt.repr q
  | .nan => "NaN".toList
  | .infinite false => "Infinity".toList
  | .infinite true => "-Infinity".toList

/-- A string between its quotes. -/
def quote (s : String) : List Char := '"' :: (s.toList.flatMap style.escape ++ ['"'])

mutual

/-- The text of a value at a depth of nesting. -/
def print (d : ℕ) : Json → List Char
  | .null => "null".toList
  | .bool b => if b then "true".toList else "false".toList
  | .int n => intText n
  | .float x => floatText fmt x
  | .str s => quote style s
  | .arr [] => ['[', ']']
  | .arr (v :: vs) => '[' :: (style.opening d ++ (print (d + 1) v ++ printItems d vs))
  | .obj [] => ['{', '}']
  | .obj (m :: ms) => '{' :: (style.opening d ++ (printMember d m ++ printMembers d ms))

/-- The text of the further elements of an array, with its closing bracket. -/
def printItems (d : ℕ) : List Json → List Char
  | [] => style.closing d ++ [']']
  | v :: vs => ',' :: (style.comma d ++ (print (d + 1) v ++ printItems d vs))

/-- The text of a member of an object. -/
def printMember (d : ℕ) : String × Json → List Char
  | (k, v) => quote style k ++ ':' :: (style.colon ++ print (d + 1) v)

/-- The text of the further members of an object, with its closing brace. -/
def printMembers (d : ℕ) : List (String × Json) → List Char
  | [] => style.closing d ++ ['}']
  | m :: ms => ',' :: (style.comma d ++ (printMember d m ++ printMembers d ms))

end

end Printer

section Printable

variable (fmt : FloatFormat) (plain : Char → Prop)

mutual

/-- The values of Python whose strings hold only some characters: dicts have each key once,
and floats are floats. -/
def Printable : Json → Prop
  | .float (.finite q) => ∃ text, fmt.parse text = .finite q
  | .str s => ∀ c ∈ s.toList, plain c
  | .arr vs => PrintableItems vs
  | .obj ms => (ms.map Prod.fst).Nodup ∧ PrintableMembers ms
  | _ => True

/-- Every element is such a value. -/
def PrintableItems : List Json → Prop
  | [] => True
  | v :: vs => Printable v ∧ PrintableItems vs

/-- Every member is a key with such a value. -/
def PrintableMembers : List (String × Json) → Prop
  | [] => True
  | (k, v) :: ms => (∀ c ∈ k.toList, plain c) ∧ Printable v ∧ PrintableMembers ms

end

end Printable

section Tokens

variable {c : Char} {text rest : List Char}

/-- White space is skipped. -/
theorem skip_blank (h : ∀ c ∈ text, isSpace c = true) (rest : List Char) : skip (text ++ rest) = skip rest :=
  List.dropWhile_append_of_pos h

/-- A token is not. -/
theorem skip_cons (h : isSpace c = false) (rest : List Char) : skip (c :: rest) = c :: rest := by
  simp [skip, h]

/-- What does not go on with a number. -/
def Stops (rest : List Char) : Prop :=
  ∀ c, rest.head? = some c → c.isDigit = false ∧ c ≠ '.' ∧ c ≠ 'e' ∧ c ≠ 'E'

/-- A number may end where the text ends. -/
theorem stops_nil : Stops [] := by
  intro c hc
  cases hc

/-- A number may end before a character that does not continue one. -/
theorem stops_cons (h : c.isDigit = false ∧ c ≠ '.' ∧ c ≠ 'e' ∧ c ≠ 'E') (rest : List Char) :
    Stops (c :: rest) := by
  intro c' hc'
  obtain rfl : c = c' := by simpa using hc'
  exact h

/-- White space does not continue a number. -/
theorem not_continues_of_isSpace (h : isSpace c = true) :
    c.isDigit = false ∧ c ≠ '.' ∧ c ≠ 'e' ∧ c ≠ 'E' := by
  simp only [isSpace, Bool.or_eq_true, beq_iff_eq] at h
  rcases h with ((rfl | rfl) | rfl) | rfl <;> decide

/-- A number ends before white space, and before the bracket after it. -/
theorem stops_blank (h : ∀ c ∈ text, isSpace c = true) (hrest : Stops rest) : Stops (text ++ rest) := by
  cases text with
  | nil => exact hrest
  | cons c t => exact stops_cons (not_continues_of_isSpace (h c List.mem_cons_self)) _

/-- The digits at the head of a text end where it goes on with something else. -/
theorem span_digits (hdigits : ∀ c ∈ text, c.isDigit = true)
    (hrest : ∀ c, rest.head? = some c → c.isDigit = false) :
    (text ++ rest).takeWhile Char.isDigit = text ∧ (text ++ rest).dropWhile Char.isDigit = rest := by
  have htake : rest.takeWhile Char.isDigit = [] := by
    cases rest with
    | nil => rfl
    | cons c rest => simp [hrest c rfl]
  have hdrop : rest.dropWhile Char.isDigit = rest := by
    cases rest with
    | nil => rfl
    | cons c rest => simp [hrest c rfl]
  exact ⟨by rw [List.takeWhile_append_of_pos hdigits, htake, List.append_nil],
    by rw [List.dropWhile_append_of_pos hdigits, hdrop]⟩

/-- The whole part of a number is taken up to what is no digit. -/
theorem takeWhole_append (h : Whole text) (hrest : ∀ c, rest.head? = some c → c.isDigit = false) :
    takeWhole (text ++ rest) = some (text, rest) := by
  rcases h with rfl | ⟨c, ds, rfl, hzero, hdigit, hds⟩
  · simp [takeWhole]
  · obtain ⟨htake, hdrop⟩ := span_digits hds hrest
    simp [takeWhole, hzero, hdigit, htake, hdrop]

/-- So are digits that may be any. -/
theorem takeDigits_append (start whole : List Char) (h : Digits text)
    (hrest : ∀ c, rest.head? = some c → c.isDigit = false) :
    takeDigits start (text ++ rest) whole = (start ++ text, rest) := by
  obtain ⟨htake, hdrop⟩ := span_digits h.2 hrest
  simp [takeDigits, htake, hdrop, h.1]

/-- So is a fraction. -/
theorem takeFraction_append (h : Fraction text)
    (hrest : ∀ c, rest.head? = some c → c.isDigit = false) : takeFraction (text ++ rest) = (text, rest) := by
  obtain ⟨ds, rfl, hds⟩ := h
  rw [takeFraction, if_pos (by simp)]
  exact takeDigits_append ['.'] _ hds hrest

/-- Without a point there is no fraction. -/
theorem takeFraction_none (hrest : rest.head? ≠ some '.') : takeFraction rest = ([], rest) := by
  rw [takeFraction, if_neg hrest]

/-- An exponent is taken up to what is no digit. -/
theorem takeExponent_append (h : Exponent text)
    (hrest : ∀ c, rest.head? = some c → c.isDigit = false) : takeExponent (text ++ rest) = (text, rest) := by
  obtain ⟨e, s, ds, rfl, he, hs, hds⟩ := h
  cases hform : ds with
  | nil => exact absurd hform hds.1
  | cons d ds' =>
    have hd : d.isDigit = true := hds.2 d (by rw [hform]; exact List.mem_cons_self)
    have hsign : ¬ (d = '+' ∨ d = '-') := by rintro (rfl | rfl) <;> revert hd <;> decide
    rw [hform] at hds
    rcases hs with rfl | rfl | rfl
    · have htake := takeDigits_append [e] (e :: (d :: ds' ++ rest)) hds hrest
      simpa [takeExponent, he, hsign] using htake
    · have htake := takeDigits_append [e, '+'] (e :: '+' :: (d :: ds' ++ rest)) hds hrest
      simpa [takeExponent, he] using htake
    · have htake := takeDigits_append [e, '-'] (e :: '-' :: (d :: ds' ++ rest)) hds hrest
      simpa [takeExponent, he] using htake

/-- Where a number stops there is no exponent. -/
theorem takeExponent_none (hrest : Stops rest) : takeExponent rest = ([], rest) := by
  cases rest with
  | nil => rfl
  | cons c rest =>
    obtain ⟨-, -, he, hE⟩ := hrest c rfl
    simp [takeExponent, he, hE]

end Tokens

section Numbers

variable {fmt : FloatFormat} {sign whole fraction exponent rest : List Char}

/-- An exponent begins with neither a digit nor a point. -/
theorem head_of_exponent (h : Exponent exponent) (rest : List Char) :
    ∃ e t, exponent ++ rest = e :: t ∧ e.isDigit = false ∧ e ≠ '.' := by
  obtain ⟨e, s, ds, rfl, he, -, -⟩ := h
  refine ⟨e, _, rfl, ?_⟩
  rcases he with rfl | rfl <;> decide

/-- The parts of a number are found as they were put together. -/
theorem parts_taken (hsign : Sign sign) (hwhole : Whole whole)
    (hfraction : fraction = [] ∨ Fraction fraction) (hexponent : exponent = [] ∨ Exponent exponent)
    (hrest : Stops rest) :
    takeSign (sign ++ (whole ++ (fraction ++ (exponent ++ rest)))) =
        (sign, whole ++ (fraction ++ (exponent ++ rest))) ∧
      takeWhole (whole ++ (fraction ++ (exponent ++ rest))) = some (whole, fraction ++ (exponent ++ rest)) ∧
      takeFraction (fraction ++ (exponent ++ rest)) = (fraction, exponent ++ rest) ∧
      takeExponent (exponent ++ rest) = (exponent, rest) := by
  have hend : ∀ c, (exponent ++ rest).head? = some c → c.isDigit = false ∧ c ≠ '.' := by
    intro c hc
    rcases hexponent with rfl | h
    · exact ⟨(hrest c hc).1, (hrest c hc).2.1⟩
    · obtain ⟨e, t, heq, hdigit, hdot⟩ := head_of_exponent h rest
      rw [heq] at hc
      obtain rfl : e = c := by simpa using hc
      exact ⟨hdigit, hdot⟩
  have hexp : takeExponent (exponent ++ rest) = (exponent, rest) := by
    rcases hexponent with rfl | h
    · exact takeExponent_none hrest
    · exact takeExponent_append h fun c hc => (hrest c hc).1
  have hfrac : takeFraction (fraction ++ (exponent ++ rest)) = (fraction, exponent ++ rest) := by
    rcases hfraction with rfl | h
    · exact takeFraction_none fun hdot => (hend _ hdot).2 rfl
    · exact takeFraction_append h fun c hc => (hend c hc).1
  have hnext : ∀ c, (fraction ++ (exponent ++ rest)).head? = some c → c.isDigit = false := by
    intro c hc
    rcases hfraction with rfl | ⟨ds, rfl, -⟩
    · exact (hend c hc).1
    · obtain rfl : '.' = c := by simpa using hc
      decide
  have hhead : takeSign (sign ++ (whole ++ (fraction ++ (exponent ++ rest)))) =
      (sign, whole ++ (fraction ++ (exponent ++ rest))) := by
    rcases hsign with rfl | rfl
    · rcases hwhole with rfl | ⟨c, ds, rfl, -, hc, -⟩
      · rfl
      · have hne : c ≠ '-' := by rintro rfl; revert hc; decide
        simp [takeSign, hne]
    · rfl
  exact ⟨hhead, takeWhole_append hwhole hnext, hfrac, hexp⟩

/-- A numeral is read as what its parts stand for. -/
theorem number_parts (hsign : Sign sign) (hwhole : Whole whole)
    (hfraction : fraction = [] ∨ Fraction fraction) (hexponent : exponent = [] ∨ Exponent exponent)
    (hrest : Stops rest) : number fmt (sign ++ (whole ++ (fraction ++ (exponent ++ rest)))) =
      if fraction = [] ∧ exponent = [] then some (.int (intOf sign whole), rest)
      else some (.float (fmt.parse (sign ++ whole ++ fraction ++ exponent)), rest) := by
  obtain ⟨hhead, htake, hfrac, hexp⟩ := parts_taken hsign hwhole hfraction hexponent hrest
  simp only [number, hhead, htake, hfrac, hexp]

/-- Decimal digits start with `0` only for zero. -/
theorem whole_toDigits (n : ℕ) : Whole (Nat.toDigits 10 n) := by
  induction n using Nat.strong_induction_on with
  | _ n ih =>
    rcases lt_or_ge n 10 with hsmall | hlarge
    · rw [Nat.toDigits_of_lt_base hsmall]
      interval_cases n
      · exact .inl rfl
      all_goals exact .inr ⟨_, [], rfl, by decide, by decide, by simp⟩
    · have hlast : (n % 10).digitChar.isDigit = true := by
        have hmod : n % 10 < 10 := Nat.mod_lt n (by omega)
        generalize n % 10 = m at hmod
        interval_cases m <;> decide
      rw [Nat.toDigits_of_base_le (by omega) hlarge]
      rcases ih (n / 10) (by omega) with hzero | ⟨c, ds, heq, hc, hdigit, hds⟩
      · have hval : Nat.ofDigitChars 10 (Nat.toDigits 10 (n / 10)) 0 = n / 10 :=
          Nat.ofDigitChars_ten_toDigits
        rw [hzero] at hval
        have hpos : 0 < n / 10 := by omega
        rw [← hval] at hpos
        exact absurd hpos (by decide)
      · rw [heq]
        refine .inr ⟨c, ds ++ [(n % 10).digitChar], rfl, hc, hdigit, ?_⟩
        intro d hd
        rcases List.mem_append.mp hd with hmem | hmem
        · exact hds d hmem
        · rw [List.mem_singleton.mp hmem]
          exact hlast

/-- A printed integer is read back. -/
theorem number_int (n : ℤ) (hrest : Stops rest) : number fmt (intText n ++ rest) = some (.int n, rest) := by
  have hwhole := whole_toDigits n.natAbs
  have hval : Nat.ofDigitChars 10 (Nat.toDigits 10 n.natAbs) 0 = n.natAbs := Nat.ofDigitChars_ten_toDigits
  unfold intText
  split
  · rename_i hneg
    have hparts := @number_parts fmt ['-'] _ _ _ _ (.inr rfl) hwhole (.inl rfl) (.inl rfl) hrest
    simp only [List.nil_append, List.cons_append, and_self, if_true] at hparts
    rw [List.cons_append, hparts]
    have hn : intOf ['-'] (Nat.toDigits 10 n.natAbs) = n := by
      rw [intOf, if_neg (by simp), hval]
      omega
    rw [hn]
  · rename_i hpos
    have hparts := @number_parts fmt [] _ _ _ _ (.inl rfl) hwhole (.inl rfl) (.inl rfl) hrest
    simp only [List.nil_append, and_self, if_true] at hparts
    rw [hparts]
    have hn : intOf [] (Nat.toDigits 10 n.natAbs) = n := by
      rw [intOf, if_pos rfl, hval]
      omega
    rw [hn]

/-- A printed float is read back. -/
theorem number_float {q : ℚ} {text : List Char} (hq : fmt.parse text = .finite q) (hrest : Stops rest) :
    number fmt (fmt.repr q ++ rest) = some (.float (.finite q), rest) := by
  obtain ⟨sign, whole, fraction, exponent, heq, hsign, hwhole, hfraction, hexponent, hsome⟩ :=
    fmt.repr_text text q hq
  have hparts := @number_parts fmt _ _ _ _ _ hsign hwhole hfraction hexponent hrest
  have hparse := fmt.parse_repr text q hq
  have hassoc : fmt.repr q ++ rest = sign ++ (whole ++ (fraction ++ (exponent ++ rest))) := by
    rw [heq]
    simp only [List.append_assoc]
  have hwritten : sign ++ whole ++ fraction ++ exponent = fmt.repr q := by
    rw [heq]
    simp only [List.append_assoc]
  rw [hassoc, hparts, if_neg hsome, hwritten, hparse]

end Numbers

section Values

variable {fmt : FloatFormat} {style : Style}

/-- Escaped characters are read back up to the closing quote. -/
theorem characters_escape {cs : List Char} (hcs : ∀ c ∈ cs, style.plain c) (rest : List Char) {n : ℕ}
    (hn : cs.length < n) :
    characters n (cs.flatMap style.escape ++ '"' :: rest) = some (cs, rest) := by
  induction cs generalizing n with
  | nil =>
    obtain ⟨n, rfl⟩ : ∃ m, n = m + 1 := ⟨n - 1, by simp at hn; omega⟩
    simp [characters]
  | cons c cs ih =>
    obtain ⟨n, rfl⟩ : ∃ m, n = m + 1 := ⟨n - 1, by simp at hn; omega⟩
    have hplain := hcs c List.mem_cons_self
    have htail := ih (fun c' hc' => hcs c' (List.mem_cons_of_mem c hc')) (n := n)
      (by simpa using hn)
    have hread := style.character_escape c hplain (cs.flatMap style.escape ++ '"' :: rest)
    have hquote : (style.escape c ++ (cs.flatMap style.escape ++ '"' :: rest)).head? ≠ some '"' := by
      cases hesc : style.escape c with
      | nil =>
        have hnone := style.character_escape c hplain []
        rw [hesc] at hnone
        simp [character] at hnone
      | cons e t =>
        have hhead := style.escape_head c hplain
        rw [hesc] at hhead
        simpa using hhead
    rw [List.flatMap_cons, List.append_assoc, characters, if_neg hquote, hread]
    simp [htail]

/-- Every character is written with something. -/
theorem length_le_escape {cs : List Char} (hcs : ∀ c ∈ cs, style.plain c) :
    cs.length ≤ (cs.flatMap style.escape).length := by
  induction cs with
  | nil => simp
  | cons c cs ih =>
    have hne : style.escape c ≠ [] := by
      intro hnil
      have hnone := style.character_escape c (hcs c List.mem_cons_self) []
      rw [hnil] at hnone
      simp [character] at hnone
    have hpos := List.length_pos_iff.mpr hne
    have htail := ih fun c' hc' => hcs c' (List.mem_cons_of_mem c hc')
    simp only [List.flatMap_cons, List.length_append, List.length_cons]
    omega

/-- A printed string is read up to its closing quote. -/
theorem string_quote {s : String} (hs : ∀ c ∈ s.toList, style.plain c) (rest : List Char) :
    string (s.toList.flatMap style.escape ++ '"' :: rest) = some (s, rest) := by
  have hlen := length_le_escape hs
  rw [string, characters_escape hs rest (by simp only [List.length_append]; omega)]
  simp

/-- What the text of a value starts with. -/
def Starts (c : Char) : Prop := isSpace c = false ∧ c ≠ ']' ∧ c ≠ '}'

/-- A digit may begin a value. -/
theorem starts_digit {c : Char} (h : c.isDigit = true) : Starts c := by
  refine ⟨?_, ?_, ?_⟩
  · cases hspace : isSpace c with
    | false => rfl
    | true => exact absurd h (by rw [(not_continues_of_isSpace hspace).1]; decide)
  · rintro rfl
    revert h
    decide
  · rintro rfl
    revert h
    decide

/-- The text of a number starts with a sign or a digit. -/
theorem head_of_number {sign whole : List Char} (hsign : Sign sign) (hwhole : Whole whole)
    (rest : List Char) : ∃ c t, sign ++ (whole ++ rest) = c :: t ∧ (c = '-' ∨ c.isDigit = true) := by
  rcases hsign with rfl | rfl
  · rcases hwhole with rfl | ⟨c, ds, rfl, -, hdigit, -⟩
    · exact ⟨'0', _, rfl, .inr (by decide)⟩
    · exact ⟨c, _, rfl, .inr hdigit⟩
  · exact ⟨'-', _, rfl, .inl rfl⟩

/-- A printed integer begins with a minus sign or a digit. -/
theorem head_of_intText (n : ℤ) : ∃ c t, intText n = c :: t ∧ (c = '-' ∨ c.isDigit = true) := by
  unfold intText
  split
  · exact ⟨'-', _, rfl, .inl rfl⟩
  · have hhead := head_of_number (.inl rfl) (whole_toDigits n.natAbs) []
    simpa using hhead

/-- So does a printed float. -/
theorem head_of_repr {q : ℚ} {text : List Char} (hq : fmt.parse text = .finite q) :
    ∃ c t, fmt.repr q = c :: t ∧ (c = '-' ∨ c.isDigit = true) := by
  obtain ⟨sign, whole, fraction, exponent, heq, hsign, hwhole, -⟩ := fmt.repr_text text q hq
  rw [heq]
  exact head_of_number hsign hwhole _

/-- What begins a number begins a value. -/
theorem starts_number {c : Char} (h : c = '-' ∨ c.isDigit = true) : Starts c := by
  rcases h with rfl | h
  · exact ⟨by decide, by decide, by decide⟩
  · exact starts_digit h

/-- The text of a value starts with a token that closes nothing. -/
theorem print_head (d : ℕ) {v : Json} (hv : Printable fmt style.plain v) :
    ∃ c t, print fmt style d v = c :: t ∧ Starts c := by
  have htoken : ∀ c t, c ∈ ['n', 't', 'f', 'N', 'I', '-', '"', '[', '{'] →
      ∃ c' t', (c :: t : List Char) = c' :: t' ∧ Starts c' := by
    intro c t hc
    refine ⟨c, t, rfl, ?_⟩
    simp only [List.mem_cons, List.not_mem_nil, or_false] at hc
    rcases hc with rfl | rfl | rfl | rfl | rfl | rfl | rfl | rfl | rfl <;>
      exact ⟨by decide, by decide, by decide⟩
  cases v with
  | null => exact htoken 'n' _ (by simp)
  | bool b =>
    cases b with
    | true => exact htoken 't' _ (by simp)
    | false => exact htoken 'f' _ (by simp)
  | int n =>
    obtain ⟨c, t, heq, hc⟩ := head_of_intText n
    exact ⟨c, t, heq, starts_number hc⟩
  | float x =>
    cases x with
    | finite q =>
      obtain ⟨text, hq⟩ := hv
      obtain ⟨c, t, heq, hc⟩ := head_of_repr hq
      exact ⟨c, t, heq, starts_number hc⟩
    | nan => exact htoken 'N' _ (by simp)
    | infinite negative =>
      cases negative with
      | true => exact htoken '-' _ (by simp)
      | false => exact htoken 'I' _ (by simp)
  | str s => exact htoken '"' _ (by simp)
  | arr vs =>
    cases vs with
    | nil => exact htoken '[' _ (by simp)
    | cons v vs => exact htoken '[' _ (by simp)
  | obj ms =>
    cases ms with
    | nil => exact htoken '{' _ (by simp)
    | cons m ms => exact htoken '{' _ (by simp)

/-- A value that starts like a number is one. -/
theorem value_number {c : Char} {t : List Char} {n : ℕ} (hc : c = '-' ∨ c.isDigit = true)
    {r : Json × List Char} (h : number fmt (c :: t) = some r) : value fmt (n + 1) (c :: t) = some r := by
  have hquote : c ≠ '"' := by rintro rfl; revert hc; decide
  have hbracket : c ≠ '[' := by rintro rfl; revert hc; decide
  have hbrace : c ≠ '{' := by rintro rfl; revert hc; decide
  rw [value, if_neg hquote, if_neg hbracket, if_neg hbrace, h]

/-- A printed integer is read as that value. -/
theorem value_int (i : ℤ) {n : ℕ} (hn : (intText i).length ≤ n) {rest : List Char} (hrest : Stops rest) :
    value fmt n (intText i ++ rest) = some (.int i, rest) := by
  obtain ⟨c, t, heq, hc⟩ := head_of_intText i
  have hnumber := @number_int fmt _ i hrest
  rw [heq] at hn hnumber ⊢
  obtain ⟨n, rfl⟩ : ∃ m, n = m + 1 := ⟨n - 1, by simp at hn; omega⟩
  exact value_number hc hnumber

/-- A printed float is read as that value. -/
theorem value_finite {q : ℚ} {text : List Char} (hq : fmt.parse text = .finite q) {n : ℕ}
    (hn : (fmt.repr q).length ≤ n) {rest : List Char} (hrest : Stops rest) :
    value fmt n (fmt.repr q ++ rest) = some (.float (.finite q), rest) := by
  obtain ⟨c, t, heq, hc⟩ := head_of_repr hq
  have hnumber := number_float hq hrest
  rw [heq] at hn hnumber ⊢
  obtain ⟨n, rfl⟩ : ∃ m, n = m + 1 := ⟨n - 1, by simp at hn; omega⟩
  exact value_number hc hnumber

/-- Members that are printed once each are read as they were. -/
theorem update_of_nodup {ms : List (String × Json)} (h : (ms.map Prod.fst).Nodup) :
    Obj.update [] ms = ms := by
  have hgo : ∀ pre : List (String × Json), (pre ++ ms).map Prod.fst |>.Nodup →
      ms.foldl (fun acc e => Obj.set acc e.1 e.2) pre = pre ++ ms := by
    clear h
    induction ms with
    | nil =>
      intro pre _
      simp
    | cons m ms ih =>
      intro pre hnodup
      have hnew : m.1 ∉ pre.map Prod.fst := by
        intro hmem
        rw [List.map_append, List.map_cons] at hnodup
        exact (List.nodup_append.mp hnodup).2.2 m.1 hmem m.1 List.mem_cons_self rfl
      have hset : Obj.set pre m.1 m.2 = pre ++ [m] := by
        unfold Obj.set
        clear hnodup
        induction pre with
        | nil => rfl
        | cons p pre ihp =>
          rw [List.map_cons, List.mem_cons, not_or] at hnew
          rw [Base.assocSet, if_neg (Ne.symm hnew.1), ihp hnew.2, List.cons_append]
      rw [List.foldl_cons, hset, ih (pre ++ [m]) (by simpa using hnodup), List.append_assoc,
        List.singleton_append]
  exact hgo [] h

/-- What follows an element ends a number. -/
theorem stops_printItems (d : ℕ) (vs : List Json) (rest : List Char) :
    Stops (printItems fmt style d vs ++ rest) := by
  cases vs with
  | nil =>
    rw [printItems, List.append_assoc]
    exact stops_blank (style.closing_blank d) (stops_cons (by decide) _)
  | cons v vs => exact stops_cons (by decide) _

/-- A number may end before the members that follow it. -/
theorem stops_printMembers (d : ℕ) (ms : List (String × Json)) (rest : List Char) :
    Stops (printMembers fmt style d ms ++ rest) := by
  cases ms with
  | nil =>
    rw [printMembers, List.append_assoc]
    exact stops_blank (style.closing_blank d) (stops_cons (by decide) _)
  | cons m ms => exact stops_cons (by decide) _

/-- White space before the text of a value is skipped, and no more. -/
theorem skip_print {blank : List Char} (hblank : ∀ c ∈ blank, isSpace c = true) (d : ℕ) {v : Json}
    (hv : Printable fmt style.plain v) (rest : List Char) :
    skip (blank ++ (print fmt style d v ++ rest)) = print fmt style d v ++ rest := by
  obtain ⟨c, t, heq, hc, -⟩ := print_head d hv
  rw [skip_blank hblank, heq]
  exact skip_cons hc _

/-- White space before a member is skipped, and no more. -/
theorem skip_printMember (fmt : FloatFormat) (style : Style) {blank : List Char}
    (hblank : ∀ c ∈ blank, isSpace c = true) (d : ℕ)
    (m : String × Json) (rest : List Char) :
    skip (blank ++ (printMember fmt style d m ++ rest)) = printMember fmt style d m ++ rest := by
  obtain ⟨k, v⟩ := m
  have hquote : isSpace '"' = false := by decide
  rw [skip_blank hblank, printMember, quote, List.cons_append, List.cons_append]
  exact skip_cons hquote _

/-- A printed member is read back when its value is. -/
theorem member_print {d n : ℕ} {k : String} {v : Json} (hk : ∀ c ∈ k.toList, style.plain c)
    (hv : Printable fmt style.plain v) (hn : (printMember fmt style d (k, v)).length ≤ n) (rest : List Char)
    (ih : ∀ m, (print fmt style (d + 1) v).length ≤ m →
      value fmt m (print fmt style (d + 1) v ++ rest) = some (v, rest)) :
    member fmt n (printMember fmt style d (k, v) ++ rest) = some ((k, v), rest) := by
  simp only [printMember, quote, List.cons_append, List.append_assoc, List.length_cons,
    List.length_append, List.nil_append] at hn ⊢
  obtain ⟨n, rfl⟩ : ∃ m, n = m + 1 := ⟨n - 1, by omega⟩
  have hstring := string_quote hk (':' :: (style.colon ++ (print fmt style (d + 1) v ++ rest)))
  have hcolon : skip (':' :: (style.colon ++ (print fmt style (d + 1) v ++ rest))) =
      ':' :: (style.colon ++ (print fmt style (d + 1) v ++ rest)) := skip_cons (by decide) _
  have hvalue := skip_print style.colon_blank (d + 1) hv rest
  rw [member, if_pos rfl, hstring]
  simp only [hcolon, List.head?_cons, if_true, List.tail_cons, hvalue]
  rw [ih n (by omega)]
  rfl

/-- A word is read as the value it stands for. -/
theorem value_word (w : List Char) {v : Json} (h : (w, v) ∈ words) {n : ℕ} (hn : w.length ≤ n)
    (rest : List Char) : value fmt n (w ++ rest) = some (v, rest) := by
  have hword : word (w ++ rest) = some (v, rest) := by
    simp only [words, List.mem_cons, Prod.mk.injEq, List.not_mem_nil, or_false] at h
    rcases h with ⟨rfl, rfl⟩ | ⟨rfl, rfl⟩ | ⟨rfl, rfl⟩ | ⟨rfl, rfl⟩ | ⟨rfl, rfl⟩ | ⟨rfl, rfl⟩ <;> rfl
  have hnumber : number fmt (w ++ rest) = none := by
    simp only [words, List.mem_cons, Prod.mk.injEq, List.not_mem_nil, or_false] at h
    rcases h with ⟨rfl, rfl⟩ | ⟨rfl, rfl⟩ | ⟨rfl, rfl⟩ | ⟨rfl, rfl⟩ | ⟨rfl, rfl⟩ | ⟨rfl, rfl⟩ <;> rfl
  have hhead : ∃ c t, w = c :: t ∧ c ≠ '"' ∧ c ≠ '[' ∧ c ≠ '{' := by
    simp only [words, List.mem_cons, Prod.mk.injEq, List.not_mem_nil, or_false] at h
    rcases h with ⟨rfl, rfl⟩ | ⟨rfl, rfl⟩ | ⟨rfl, rfl⟩ | ⟨rfl, rfl⟩ | ⟨rfl, rfl⟩ | ⟨rfl, rfl⟩ <;>
      exact ⟨_, _, rfl, by decide, by decide, by decide⟩
  obtain ⟨c, t, rfl, hquote, hbracket, hbrace⟩ := hhead
  obtain ⟨n, rfl⟩ : ∃ m, n = m + 1 := ⟨n - 1, by simp at hn; omega⟩
  rw [List.cons_append] at hword hnumber ⊢
  rw [value, if_neg hquote, if_neg hbracket, if_neg hbrace, hnumber]
  exact hword

/-- A quoted string is read as that value. -/
theorem value_str {s : String} (hs : ∀ c ∈ s.toList, style.plain c) {n : ℕ}
    (hn : (quote style s).length ≤ n) (rest : List Char) :
    value fmt n (quote style s ++ rest) = some (.str s, rest) := by
  obtain ⟨n, rfl⟩ : ∃ m, n = m + 1 := ⟨n - 1, by simp [quote] at hn; omega⟩
  have hread := string_quote hs rest
  simp only [quote, List.cons_append, List.append_assoc, List.nil_append]
  rw [value, if_pos rfl, hread]
  rfl

/-- An array is read back when its first element and the further ones are. -/
theorem value_arr {d n : ℕ} {v : Json} {vs : List Json} {rest : List Char} (hv : Printable fmt style.plain v)
    (hvalue : value fmt n (print fmt style (d + 1) v ++ (printItems fmt style d vs ++ rest)) =
      some (v, printItems fmt style d vs ++ rest))
    (hitems : items fmt n (printItems fmt style d vs ++ rest) = some (vs, rest)) :
    value fmt (n + 1) (print fmt style d (.arr (v :: vs)) ++ rest) = some (.arr (v :: vs), rest) := by
  have hskip := skip_print (style.opening_blank d) (d + 1) hv (printItems fmt style d vs ++ rest)
  have hopen : (print fmt style (d + 1) v ++ (printItems fmt style d vs ++ rest)).head? ≠ some ']' := by
    obtain ⟨c, t, heq, -, hc, -⟩ := print_head (d + 1) hv
    simpa [heq] using hc
  simp only [print, List.cons_append, List.append_assoc]
  rw [value, if_neg (by decide), if_pos rfl, hskip, if_neg hopen, hvalue]
  simp only [hitems, Option.map_some]

/-- A printed item is read, and then the items behind it. -/
theorem items_cons {d n : ℕ} {v : Json} {vs : List Json} {rest : List Char} (hv : Printable fmt style.plain v)
    (hvalue : value fmt n (print fmt style (d + 1) v ++ (printItems fmt style d vs ++ rest)) =
      some (v, printItems fmt style d vs ++ rest))
    (hitems : items fmt n (printItems fmt style d vs ++ rest) = some (vs, rest)) :
    items fmt (n + 1) (printItems fmt style d (v :: vs) ++ rest) = some (v :: vs, rest) := by
  have hskip := skip_print (style.comma_blank d) (d + 1) hv (printItems fmt style d vs ++ rest)
  have hcomma : isSpace ',' = false := by decide
  rw [printItems, List.cons_append, List.append_assoc, List.append_assoc, items, skip_cons hcomma]
  simp only [if_neg (by decide : ¬ ',' = ']'), if_true, hskip, hvalue, hitems, Option.map_some]

/-- An object is read back when its first member and the further ones are. -/
theorem value_obj {d n : ℕ} {m : String × Json} {ms : List (String × Json)} {rest : List Char}
    (hnodup : ((m :: ms).map Prod.fst).Nodup)
    (hmember : member fmt n (printMember fmt style d m ++ (printMembers fmt style d ms ++ rest)) =
      some (m, printMembers fmt style d ms ++ rest))
    (hmembers : members fmt n (printMembers fmt style d ms ++ rest) = some (ms, rest)) :
    value fmt (n + 1) (print fmt style d (.obj (m :: ms)) ++ rest) = some (.obj (m :: ms), rest) := by
  have hskip := skip_printMember fmt style (style.opening_blank d) d m (printMembers fmt style d ms ++ rest)
  have hopen : (printMember fmt style d m ++ (printMembers fmt style d ms ++ rest)).head? ≠ some '}' := by
    obtain ⟨k, v⟩ := m
    simp [printMember, quote]
  simp only [print, List.cons_append, List.append_assoc]
  rw [value, if_neg (by decide), if_neg (by decide), if_pos rfl, hskip, if_neg hopen, hmember]
  simp only [hmembers, Option.map_some, update_of_nodup hnodup]

/-- A printed member is read, and then the members behind it. -/
theorem members_cons {d n : ℕ} {m : String × Json} {ms : List (String × Json)} {rest : List Char}
    (hmember : member fmt n (printMember fmt style d m ++ (printMembers fmt style d ms ++ rest)) =
      some (m, printMembers fmt style d ms ++ rest))
    (hmembers : members fmt n (printMembers fmt style d ms ++ rest) = some (ms, rest)) :
    members fmt (n + 1) (printMembers fmt style d (m :: ms) ++ rest) = some (m :: ms, rest) := by
  have hskip := skip_printMember fmt style (style.comma_blank d) d m (printMembers fmt style d ms ++ rest)
  have hcomma : isSpace ',' = false := by decide
  rw [printMembers, List.cons_append, List.append_assoc, List.append_assoc, members, skip_cons hcomma]
  simp only [if_neg (by decide : ¬ ',' = '}'), if_true, hskip, hmember, hmembers, Option.map_some]

/-- The end of the items is read. -/
theorem items_nil (d : ℕ) {n : ℕ} (hn : 0 < n) (rest : List Char) :
    items fmt n (printItems fmt style d [] ++ rest) = some ([], rest) := by
  obtain ⟨n, rfl⟩ : ∃ m, n = m + 1 := ⟨n - 1, by omega⟩
  rw [printItems, items, List.append_assoc, skip_blank (style.closing_blank d)]
  simp [skip, isSpace]

/-- The end of the members is read. -/
theorem members_nil (d : ℕ) {n : ℕ} (hn : 0 < n) (rest : List Char) :
    members fmt n (printMembers fmt style d [] ++ rest) = some ([], rest) := by
  obtain ⟨n, rfl⟩ : ∃ m, n = m + 1 := ⟨n - 1, by omega⟩
  rw [printMembers, members, List.append_assoc, skip_blank (style.closing_blank d)]
  simp [skip, isSpace]

/-- Empty brackets and braces are read. -/
theorem value_nil {n : ℕ} (hn : 0 < n) (rest : List Char) :
    value fmt n ('[' :: ']' :: rest) = some (.arr [], rest) ∧
      value fmt n ('{' :: '}' :: rest) = some (.obj [], rest) := by
  obtain ⟨n, rfl⟩ : ∃ m, n = m + 1 := ⟨n - 1, by omega⟩
  constructor <;> simp [value, skip, isSpace]

mutual

/-- A printed value is read back, whatever follows it. -/
theorem value_print : ∀ (v : Json) (d n : ℕ) (rest : List Char), Printable fmt style.plain v →
    (print fmt style d v).length ≤ n → Stops rest →
    value fmt n (print fmt style d v ++ rest) = some (v, rest)
  | .null, _, _, rest, _, hn, _ => value_word "null".toList (by simp [words]) hn rest
  | .bool true, _, _, rest, _, hn, _ => value_word "true".toList (by simp [words]) hn rest
  | .bool false, _, _, rest, _, hn, _ => value_word "false".toList (by simp [words]) hn rest
  | .int i, _, _, _, _, hn, hrest => value_int i hn hrest
  | .float (.finite q), _, _, _, ⟨_, hq⟩, hn, hrest => value_finite hq hn hrest
  | .float .nan, _, _, rest, _, hn, _ => value_word "NaN".toList (by simp [words]) hn rest
  | .float (.infinite false), _, _, rest, _, hn, _ => value_word "Infinity".toList (by simp [words]) hn rest
  | .float (.infinite true), _, _, rest, _, hn, _ => value_word "-Infinity".toList (by simp [words]) hn rest
  | .str _, _, _, rest, hs, hn, _ => value_str hs hn rest
  | .arr [], _, _, rest, _, hn, _ => (value_nil (Nat.lt_of_lt_of_le (by simp [print]) hn) rest).1
  | .arr (v :: vs), d, n, rest, ⟨hv, hvs⟩, hn, _ => by
    simp only [print, List.length_cons, List.length_append] at hn
    obtain ⟨n, rfl⟩ : ∃ m, n = m + 1 := ⟨n - 1, by omega⟩
    have hvalue := value_print v (d + 1) n (printItems fmt style d vs ++ rest) hv (by omega)
      (stops_printItems d vs rest)
    exact value_arr hv hvalue (items_print vs d n rest hvs (by omega))
  | .obj [], _, _, rest, _, hn, _ => (value_nil (Nat.lt_of_lt_of_le (by simp [print]) hn) rest).2
  | .obj ((k, v) :: ms), d, n, rest, ⟨hnodup, hk, hv, hms⟩, hn, _ => by
    simp only [print, List.length_cons, List.length_append] at hn
    obtain ⟨n, rfl⟩ : ∃ m, n = m + 1 := ⟨n - 1, by omega⟩
    have hmember := member_print (n := n) hk hv (by omega) (printMembers fmt style d ms ++ rest)
      fun m hm => value_print v (d + 1) m _ hv hm (stops_printMembers d ms rest)
    exact value_obj hnodup hmember (members_print ms d n rest hms (by omega))

/-- The printed further elements of an array are read back. -/
theorem items_print : ∀ (vs : List Json) (d n : ℕ) (rest : List Char), PrintableItems fmt style.plain vs →
    (printItems fmt style d vs).length ≤ n →
    items fmt n (printItems fmt style d vs ++ rest) = some (vs, rest)
  | [], d, _, rest, _, hn => items_nil d (Nat.lt_of_lt_of_le (by simp [printItems]) hn) rest
  | v :: vs, d, n, rest, ⟨hv, hvs⟩, hn => by
    simp only [printItems, List.length_cons, List.length_append] at hn
    obtain ⟨n, rfl⟩ : ∃ m, n = m + 1 := ⟨n - 1, by omega⟩
    have hvalue := value_print v (d + 1) n (printItems fmt style d vs ++ rest) hv (by omega)
      (stops_printItems d vs rest)
    exact items_cons hv hvalue (items_print vs d n rest hvs (by omega))

/-- The printed further members of an object are read back. -/
theorem members_print : ∀ (ms : List (String × Json)) (d n : ℕ) (rest : List Char),
    PrintableMembers fmt style.plain ms → (printMembers fmt style d ms).length ≤ n →
    members fmt n (printMembers fmt style d ms ++ rest) = some (ms, rest)
  | [], d, _, rest, _, hn => members_nil d (Nat.lt_of_lt_of_le (by simp [printMembers]) hn) rest
  | (k, v) :: ms, d, n, rest, ⟨hk, hv, hms⟩, hn => by
    simp only [printMembers, List.length_cons, List.length_append] at hn
    obtain ⟨n, rfl⟩ : ∃ m, n = m + 1 := ⟨n - 1, by omega⟩
    have hmember := member_print (n := n) hk hv (by omega) (printMembers fmt style d ms ++ rest)
      fun m hm => value_print v (d + 1) m _ hv hm (stops_printMembers d ms rest)
    exact members_cons hmember (members_print ms d n rest hms (by omega))

end

/-- What a style prints, `json.loads` reads back. -/
theorem loads_print {v : Json} (hv : Printable fmt style.plain v) : loads fmt (print fmt style 0 v) = some v := by
  have hread := value_print v 0 ((print fmt style 0 v).length + 1) [] hv (by omega) stops_nil
  obtain ⟨c, t, heq, hc, -⟩ := print_head 0 hv
  have hskip : skip (print fmt style 0 v) = print fmt style 0 v := by
    rw [heq]
    exact skip_cons hc t
  rw [List.append_nil] at hread
  rw [loads, hskip, hread]
  simp [skip]

end Values

end VirtuosoFlow.JsonText
