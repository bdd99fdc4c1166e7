import VirtuosoFlow.JsonText

/-!
# The printer of `json.dumps`

Its two styles, on one line and with an indentation, and what both have in common:
`json.loads` reads the value back. On one line it writes printable ASCII only.
-/

namespace VirtuosoFlow.JsonText

open VirtuosoFlow

section Dumps

/-- The four hexadecimal digits of a code unit. -/
def hex4 (n : ℕ) : List Char :=
  [Nat.digitChar (n / 4096), Nat.digitChar (n / 256 % 16), Nat.digitChar (n / 16 % 16),
    Nat.digitChar (n % 16)]

/-- `ESCAPE_DCT`: the letter of a character that has an escape of its own. -/
def escapeLetter : Char → Option Char
  | '"' => some '"'
  | '\\' => some '\\'
  | '\x08' => some 'b'
  | '\x0c' => some 'f'
  | '\n' => some 'n'
  | '\r' => some 'r'
  | '\t' => some 't'
  | _ => none

/-- `py_encode_basestring_ascii`, for one character. -/
def escapeAscii (c : Char) : List Char :=
  match escapeLetter c with
  | some e => ['\\', e]
  | none =>
    if 32 ≤ c.toNat ∧ c.toNat < 127 then [c]
    else if c.toNat < 0x10000 then '\\' :: 'u' :: hex4 c.toNat
    else '\\' :: 'u' :: (hex4 (0xd800 + (c.toNat - 0x10000) / 1024) ++
      '\\' :: 'u' :: hex4 (0xdc00 + (c.toNat - 0x10000) % 1024))

/-- A hexadecimal digit is read back. -/
theorem hexValue?_digitChar {n : ℕ} (hn : n < 16) : hexValue? (Nat.digitChar n) = some n := by
  interval_cases n <;> decide

/-- Four hexadecimal digits are read back as the code unit they were written for. -/
theorem codeUnit_hex4 {n : ℕ} (hn : n < 0x10000) (rest : List Char) :
    codeUnit (hex4 n ++ rest) = some (n, rest) := by
  simp only [hex4, List.cons_append, List.nil_append, codeUnit]
  rw [hexValue?_digitChar (by omega : n / 4096 < 16), hexValue?_digitChar (by omega : n / 256 % 16 < 16),
    hexValue?_digitChar (by omega : n / 16 % 16 < 16), hexValue?_digitChar (by omega : n % 16 < 16)]
  have hsum : n / 4096 * 4096 + n / 256 % 16 * 256 + n / 16 % 16 * 16 + n % 16 = n := by omega
  simp only [hsum]

/-- The code of a character is no surrogate. -/
theorem toNat_valid (c : Char) : c.toNat < 0xd800 ∨ 0xdfff < c.toNat ∧ c.toNat < 0x110000 := c.valid

/-- A surrogate pair is read as one character. -/
theorem unicodeEscape_pair {n : ℕ} (hlow : 0x10000 ≤ n) (hhigh : n < 0x110000) (rest : List Char) :
    unicodeEscape (hex4 (0xd800 + (n - 0x10000) / 1024) ++
      '\\' :: 'u' :: (hex4 (0xdc00 + (n - 0x10000) % 1024) ++ rest)) = some (Char.ofNat n, rest) := by
  obtain ⟨a, b, hb, ha, rfl⟩ : ∃ a b, b < 1024 ∧ a < 1024 ∧ n = 0x10000 + a * 1024 + b :=
    ⟨(n - 0x10000) / 1024, (n - 0x10000) % 1024, by omega, by omega, by omega⟩
  have hfst : (0x10000 + a * 1024 + b - 0x10000) / 1024 = a := by omega
  have hsnd : (0x10000 + a * 1024 + b - 0x10000) % 1024 = b := by omega
  rw [hfst, hsnd, unicodeEscape, codeUnit_hex4 (by omega)]
  have hfirst : 0xd800 ≤ 0xd800 + a ∧ 0xd800 + a < 0xdc00 := by omega
  have hsecond : 0xdc00 ≤ 0xdc00 + b ∧ 0xdc00 + b < 0xe000 := by omega
  simp only [if_pos hfirst, codeUnit_hex4 (show 0xdc00 + b < 0x10000 by omega), if_pos hsecond,
    Nat.add_sub_cancel_left]

/-- Other characters are read from one code unit. -/
theorem unicodeEscape_unit {n : ℕ} (hn : n < 0x10000) (hvalid : ¬ (0xd800 ≤ n ∧ n < 0xe000))
    (rest : List Char) : unicodeEscape (hex4 n ++ rest) = some (Char.ofNat n, rest) := by
  have hfirst : ¬ (0xd800 ≤ n ∧ n < 0xdc00) := by omega
  have hsecond : ¬ (0xdc00 ≤ n ∧ n < 0xe000) := by omega
  rw [unicodeEscape, codeUnit_hex4 hn]
  simp only [if_neg hfirst, if_neg hsecond]

/-- An escaped character is read as the character. -/
theorem character_escapeAscii (c : Char) (rest : List Char) :
    character (escapeAscii c ++ rest) = some (c, rest) := by
  unfold escapeAscii
  cases hletter : escapeLetter c with
  | some e =>
    have hback : e ≠ 'u' ∧ letterEscape e = some c := by
      unfold escapeLetter at hletter
      split at hletter <;> simp only [Option.some.injEq, reduceCtorEq] at hletter <;> subst hletter <;>
        exact ⟨by decide, rfl⟩
    simp [character, hback]
  | none =>
    have hslash : c ≠ '\\' := by
      rintro rfl
      simp [escapeLetter] at hletter
    have hvalid := toNat_valid c
    have hchar : Char.ofNat c.toNat = c := Char.ofNat_toNat c
    simp only
    split
    · have hlow : ¬ c.toNat < 32 := by omega
      simp [character, hslash, hlow]
    · split
      · have hunit := unicodeEscape_unit (n := c.toNat) (by omega) (by omega) rest
        simp [character, hunit, hchar]
      · have hpair := unicodeEscape_pair (n := c.toNat) (by omega) (by omega) rest
        simp only [List.cons_append, List.append_assoc, character, if_true, hpair, hchar]

/-- The escape of a character does not close the string. -/
theorem escapeAscii_head (c : Char) : (escapeAscii c).head? ≠ some '"' := by
  unfold escapeAscii
  cases hletter : escapeLetter c with
  | some e => simp
  | none =>
    have hquote : c ≠ '"' := by
      rintro rfl
      simp [escapeLetter] at hletter
    simp only
    split
    · simpa using hquote
    · split <;> simp

/-- A line break and the indentation after it. -/
def newline (indent d : ℕ) : List Char := '\n' :: List.replicate (indent * d) ' '

/-- A line end with its indentation is white space. -/
theorem newline_blank (indent d : ℕ) : ∀ c ∈ newline indent d, isSpace c = true := by
  intro c hc
  rcases List.mem_cons.mp hc with rfl | hc
  · decide
  · rw [List.eq_of_mem_replicate hc]
    decide

/-- The white space of `json.dumps`: none but a blank after each comma and colon, or a line
for each element. -/
def layout (indent : Option ℕ) (inline : List Char) (d : ℕ) : List Char :=
  match indent with
  | none => inline
  | some k => newline k d

/-- What is put between the items of a value is white space. -/
theorem layout_blank (indent : Option ℕ) {inline : List Char} (hinline : ∀ c ∈ inline, isSpace c = true)
    (d : ℕ) : ∀ c ∈ layout indent inline d, isSpace c = true := by
  cases indent with
  | none => exact hinline
  | some k => exact newline_blank k d

/-- The style of `json.dumps(v)` and of `json.dumps(v, indent=k)`. -/
def dumpsStyle (indent : Option ℕ) : Style where
  escape := escapeAscii
  plain _ := True
  opening d := layout indent [] (d + 1)
  comma d := layout indent [' '] (d + 1)
  closing d := layout indent [] d
  colon := [' ']
  character_escape c _ rest := character_escapeAscii c rest
  escape_head c _ := escapeAscii_head c
  opening_blank d := layout_blank indent (by simp) (d + 1)
  comma_blank d := layout_blank indent (by simp [isSpace]) (d + 1)
  closing_blank d := layout_blank indent (by simp) d
  colon_blank := by simp [isSpace]

/-- `json.dumps(v)`, or with `indent=k`. -/
def dumps (fmt : FloatFormat) (indent : Option ℕ) (v : Json) : List Char :=
  print fmt (dumpsStyle indent) 0 v

/-- The values of Python: dicts have each key once, and floats are floats. -/
def WellFormed (fmt : FloatFormat) (v : Json) : Prop := Printable fmt (fun _ => True) v

/-- `json.loads(json.dumps(v)) == v`. -/
theorem loads_dumps {fmt : FloatFormat} (indent : Option ℕ) {v : Json} (hv : WellFormed fmt v) :
    loads fmt (dumps fmt indent v) = some v :=
  loads_print hv

end Dumps

section Ascii

variable {fmt : FloatFormat}

/-- A printable ASCII character. -/
def Ascii (c : Char) : Prop := 32 ≤ c.toNat ∧ c.toNat < 127

instance (c : Char) : Decidable (Ascii c) := inferInstanceAs (Decidable (_ ∧ _))

/-- A character of a number. -/
def Numeral (c : Char) : Prop := c.isDigit = true ∨ c ∈ ['-', '+', '.', 'e', 'E']

instance (c : Char) : Decidable (Numeral c) := inferInstanceAs (Decidable (_ ∨ _))

/-- What numerals consist of is ASCII. -/
theorem ascii_numeral {c : Char} (h : Numeral c) : Ascii c := by
  rcases h with hdigit | hsign
  · obtain ⟨hlow, hhigh⟩ : 48 ≤ c.toNat ∧ c.toNat ≤ 57 := by
      simpa [Char.isDigit, UInt32.le_iff_toNat_le] using hdigit
    exact ⟨by omega, by omega⟩
  · exact Base.forall_mem_of_all (by decide) c hsign

/-- Digits are characters of numerals. -/
theorem numeral_digits {text : List Char} (h : Digits text) : ∀ c ∈ text, Numeral c :=
  fun c hc => .inl (h.2 c hc)

/-- So are those of a whole part. -/
theorem numeral_whole {text : List Char} (h : Whole text) : ∀ c ∈ text, Numeral c := by
  rcases h with rfl | ⟨c, ds, rfl, -, hc, hds⟩
  · exact Base.forall_mem_of_all (by decide)
  · intro x hx
    rcases List.mem_cons.mp hx with rfl | hx
    · exact .inl hc
    · exact .inl (hds x hx)

/-- So is a sign. -/
theorem numeral_sign {text : List Char} (h : Sign text) : ∀ c ∈ text, Numeral c := by
  rcases h with rfl | rfl <;> exact Base.forall_mem_of_all (by decide)

/-- A float is written in characters of numerals. -/
theorem numeral_floatText {text : List Char} (h : FloatText text) : ∀ c ∈ text, Numeral c := by
  obtain ⟨sign, whole, fraction, exponent, rfl, hsign, hwhole, hfraction, hexponent, -⟩ := h
  intro c hc
  simp only [List.mem_append] at hc
  rcases hc with hc | hc | hc | hc
  · exact numeral_sign hsign c hc
  · exact numeral_whole hwhole c hc
  · rcases hfraction with rfl | ⟨ds, rfl, hds⟩
    · cases hc
    · rcases List.mem_cons.mp hc with rfl | hc
      · decide
      · exact numeral_digits hds c hc
  · rcases hexponent with rfl | ⟨e, s, ds, rfl, he, hs, hds⟩
    · cases hc
    · rcases List.mem_cons.mp hc with rfl | hc
      · rcases he with rfl | rfl <;> decide
      · rcases List.mem_append.mp hc with hc | hc
        · rcases hs with rfl | rfl | rfl
          · cases hc
          · rw [List.mem_singleton.mp hc]
            decide
          · rw [List.mem_singleton.mp hc]
            decide
        · exact numeral_digits hds c hc

/-- An integer is written in characters of numerals. -/
theorem numeral_intText (n : ℤ) : ∀ c ∈ intText n, Numeral c := by
  have hwhole := numeral_whole (whole_toDigits n.natAbs)
  unfold intText
  split
  · intro c hc
    rcases List.mem_cons.mp hc with rfl | hc
    · decide
    · exact hwhole c hc
  · exact hwhole

/-- Hexadecimal digits are ASCII. -/
theorem ascii_hex4 {n : ℕ} (hn : n < 0x10000) : ∀ c ∈ hex4 n, Ascii c := by
  have hdigit : ∀ m, m < 16 → Ascii (Nat.digitChar m) := by
    intro m hm
    interval_cases m <;> decide
  intro c hc
  simp only [hex4, List.mem_cons, List.not_mem_nil, or_false] at hc
  rcases hc with rfl | rfl | rfl | rfl <;> exact hdigit _ (by omega)

/-- An escaped character is ASCII. -/
theorem ascii_escapeAscii (c : Char) : ∀ e ∈ escapeAscii c, Ascii e := by
  unfold escapeAscii
  cases hletter : escapeLetter c with
  | some e =>
    unfold escapeLetter at hletter
    split at hletter <;> simp only [Option.some.injEq, reduceCtorEq] at hletter <;> subst hletter <;>
      exact Base.forall_mem_of_all (by decide)
  | none =>
    have hvalid := toNat_valid c
    simp only
    split
    · rename_i hascii
      intro e he
      rw [List.mem_singleton.mp he]
      exact hascii
    · split
      · rename_i hsmall
        intro e he
        simp only [List.mem_cons] at he
        rcases he with rfl | rfl | he
        · decide
        · decide
        · exact ascii_hex4 hsmall e he
      · intro e he
        simp only [List.mem_cons, List.mem_append] at he
        rcases he with rfl | rfl | he | rfl | rfl | he
        · decide
        · decide
        · exact ascii_hex4 (by omega) e he
        · decide
        · decide
        · exact ascii_hex4 (by omega) e he

/-- So is a quoted string. -/
theorem ascii_quote (indent : Option ℕ) (s : String) : ∀ c ∈ quote (dumpsStyle indent) s, Ascii c := by
  intro c hc
  simp only [quote, List.mem_cons, List.mem_append, List.mem_flatMap, List.not_mem_nil, or_false] at hc
  rcases hc with rfl | ⟨x, -, hx⟩ | rfl
  · decide
  · exact ascii_escapeAscii x c hx
  · decide

/-- Every character of a list that is put together from such characters is one. -/
theorem ascii_append {t u : List Char} (ht : ∀ c ∈ t, Ascii c) (hu : ∀ c ∈ u, Ascii c) :
    ∀ c ∈ t ++ u, Ascii c := by
  intro c hc
  rcases List.mem_append.mp hc with hc | hc
  · exact ht c hc
  · exact hu c hc

/-- A text is ASCII if its head and its rest are. -/
theorem ascii_cons {c : Char} {t : List Char} (hc : Ascii c) (ht : ∀ c ∈ t, Ascii c) :
    ∀ c' ∈ c :: t, Ascii c' := by
  intro c' hc'
  rcases List.mem_cons.mp hc' with rfl | hc'
  · exact hc
  · exact ht c' hc'

/-- The white space of one line. -/
theorem ascii_layout (d : ℕ) : (∀ c ∈ (dumpsStyle none).opening d, Ascii c) ∧
    (∀ c ∈ (dumpsStyle none).comma d, Ascii c) ∧ (∀ c ∈ (dumpsStyle none).closing d, Ascii c) ∧
    ∀ c ∈ (dumpsStyle none).colon, Ascii c := by
  simp only [dumpsStyle, layout]
  exact ⟨Base.forall_mem_of_all (by decide), Base.forall_mem_of_all (by decide),
    Base.forall_mem_of_all (by decide), Base.forall_mem_of_all (by decide)⟩

/-- The words for the constants are ASCII. -/
theorem ascii_words : ∀ w ∈ words, ∀ c ∈ w.1, Ascii c := by
  intro w hw
  simp only [words, List.mem_cons, List.not_mem_nil, or_false] at hw
  rcases hw with rfl | rfl | rfl | rfl | rfl | rfl <;> simp [Ascii]

/-- So is the text of a float. -/
theorem ascii_floats (x : PyFloat) (hx : WellFormed fmt (.float x)) :
    ∀ c ∈ floatText fmt x, Ascii c := by
  cases x with
  | finite q =>
    rw [WellFormed, Printable] at hx
    obtain ⟨text, hq⟩ := hx
    exact fun c hc => ascii_numeral (numeral_floatText (fmt.repr_text text q hq) c hc)
  | nan => exact ascii_words ("NaN".toList, .float .nan) (by simp [words])
  | infinite negative =>
    cases negative with
    | true => exact ascii_words ("-Infinity".toList, .float (.infinite true)) (by simp [words])
    | false => exact ascii_words ("Infinity".toList, .float (.infinite false)) (by simp [words])

/-- A member on one line, when its value is. -/
theorem ascii_printMember {k : String} {v : Json} {d : ℕ}
    (hv : ∀ c ∈ print fmt (dumpsStyle none) (d + 1) v, Ascii c) :
    ∀ c ∈ printMember fmt (dumpsStyle none) d (k, v), Ascii c := by
  rw [printMember]
  exact ascii_append (ascii_quote none k)
    (ascii_cons (by decide) (ascii_append (ascii_layout d).2.2.2 hv))

mutual

/-- `json.dumps(v)` writes one line of ASCII. -/
theorem ascii_print : ∀ (v : Json) (d : ℕ), WellFormed fmt v →
    ∀ c ∈ print fmt (dumpsStyle none) d v, Ascii c
  | .null, _, _ => ascii_words ("null".toList, .null) (by simp [words])
  | .bool true, _, _ => ascii_words ("true".toList, .bool true) (by simp [words])
  | .bool false, _, _ => ascii_words ("false".toList, .bool false) (by simp [words])
  | .int i, _, _ => fun c hc => ascii_numeral (numeral_intText i c hc)
  | .float x, _, hx => ascii_floats x hx
  | .str s, _, _ => ascii_quote none s
  | .arr [], _, _ => by rw [print]; exact Base.forall_mem_of_all (by decide)
  | .arr (v :: vs), d, ⟨hv, hvs⟩ => by
    rw [print]
    exact ascii_cons (by decide) (ascii_append (ascii_layout d).1
      (ascii_append (ascii_print v (d + 1) hv) (ascii_printItems vs d hvs)))
  | .obj [], _, _ => by rw [print]; exact Base.forall_mem_of_all (by decide)
  | .obj ((k, v) :: ms), d, ⟨_, _, hv, hms⟩ => by
    rw [print]
    exact ascii_cons (by decide) (ascii_append (ascii_layout d).1
      (ascii_append (ascii_printMember (ascii_print v (d + 1) hv)) (ascii_printMembers ms d hms)))

/-- Printed items are ASCII. -/
theorem ascii_printItems : ∀ (vs : List Json) (d : ℕ), PrintableItems fmt (fun _ => True) vs →
    ∀ c ∈ printItems fmt (dumpsStyle none) d vs, Ascii c
  | [], d, _ => by
    rw [printItems]
    exact ascii_append (ascii_layout d).2.2.1 (Base.forall_mem_of_all (by decide))
  | v :: vs, d, ⟨hv, hvs⟩ => by
    rw [printItems]
    exact ascii_cons (by decide) (ascii_append (ascii_layout d).2.1
      (ascii_append (ascii_print v (d + 1) hv) (ascii_printItems vs d hvs)))

/-- Printed members are ASCII. -/
theorem ascii_printMembers : ∀ (ms : List (String × Json)) (d : ℕ),
    PrintableMembers fmt (fun _ => True) ms → ∀ c ∈ printMembers fmt (dumpsStyle none) d ms, Ascii c
  | [], d, _ => by
    rw [printMembers]
    exact ascii_append (ascii_layout d).2.2.1 (Base.forall_mem_of_all (by decide))
  | (k, v) :: ms, d, ⟨_, hv, hms⟩ => by
    rw [printMembers]
    exact ascii_cons (by decide) (ascii_append (ascii_layout d).2.1
      (ascii_append (ascii_printMember (ascii_print v (d + 1) hv)) (ascii_printMembers ms d hms)))

end

end Ascii

end VirtuosoFlow.JsonText
