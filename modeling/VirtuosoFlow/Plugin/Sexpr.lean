import VirtuosoFlow.JsonDumps
import VirtuosoFlow.Plugin.Skill

/-!
# The texts the plugin reads

`to_sexpr` of `skillrpc.py` and the SKILL reader. The reader undoes backslash escapes in
strings and takes every other character as it is; a text is read as the value it was
written from.
-/

namespace VirtuosoFlow.Plugin.Sexpr

open VirtuosoFlow VirtuosoFlow.JsonText

section Writer

/-- `s.replace(old, new)` for a single character `old`. -/
def replace (old : Char) (new : List Char) (text : List Char) : List Char :=
  text.flatMap fun c => if c = old then new else [c]

/-- The characters of a string between its quotes. -/
def escaped (text : List Char) : List Char :=
  replace '\n' ['\\', 'n'] (replace '"' ['\\', '"'] (replace '\\' ['\\', '\\'] text))

variable (fmt : FloatFormat)

/-- `repr(x)`. -/
def reprFloat : PyFloat → List Char
  | .finite q => fmt.repr q
  | .nan => "nan".toList
  | .infinite false => "inf".toList
  | .infinite true => "-inf".toList

/-- A string between quotes. -/
def quoted (s : String) : List Char := '"' :: (escaped s.toList ++ ['"'])

mutual

/-- `to_sexpr(obj)`. -/
def toSexpr : Json → List Char
  | .bool true => "t".toList
  | .bool false => "nil".toList
  | .null => "nil".toList
  | .str s => quoted s
  | .int n => intText n
  | .float x => reprFloat fmt x
  | .obj [] => ['(', ')']
  | .obj (m :: ms) => '(' :: (toSexprMember m ++ toSexprMembers ms)
  | .arr [] => ['(', ')']
  | .arr (v :: vs) => '(' :: (toSexpr v ++ toSexprItems vs)

/-- The further elements of a list, with its closing parenthesis. -/
def toSexprItems : List Json → List Char
  | [] => [')']
  | v :: vs => ' ' :: (toSexpr v ++ toSexprItems vs)

/-- A member of a dict: its key and its value. -/
def toSexprMember : String × Json → List Char
  | (k, v) => '(' :: (quoted k ++ ' ' :: (toSexpr v ++ [')']))

/-- The further members of a dict, with the closing parenthesis. -/
def toSexprMembers : List (String × Json) → List Char
  | [] => [')']
  | m :: ms => ' ' :: (toSexprMember m ++ toSexprMembers ms)

end

end Writer

section Reader

variable (fmt : FloatFormat)

/-- What a backslash and a letter stand for in a string. -/
def unescape : Char → Char
  | 'n' => '\n'
  | 't' => '\t'
  | c => c

/-- The characters of a string up to its closing quote. -/
def readString : List Char → Option (List Char × List Char)
  | [] => none
  | '"' :: rest => some ([], rest)
  | '\\' :: e :: rest => (readString rest).map fun r => (unescape e :: r.1, r.2)
  | c :: rest => (readString rest).map fun r => (c :: r.1, r.2)

/-- The characters that end an atom. -/
def delimits (c : Char) : Bool := isSpace c || c == '(' || c == ')' || c == '"'

/-- The value of an atom: a number, `nil`, `t` or a symbol. -/
def atom (text : List Char) : Value :=
  match number fmt text with
  | some (.int n, []) => .fix n
  | some (.float x, []) => Value.ofFloat x
  | _ =>
    if text = "nil".toList then .nil
    else if text = "t".toList then .t
    else .sym (String.ofList text)

mutual

/-- `read(port)`: the value at the head of a text, and what is left of the text. -/
def read : ℕ → List Char → Option (Value × List Char)
  | 0, _ => none
  | n + 1, text =>
    match skip text with
    | [] => none
    | c :: rest =>
      if c = '(' then readItems n rest
      else if c = ')' then none
      else if c = '"' then (readString rest).map fun r => (.str (String.ofList r.1), r.2)
      else some (atom fmt ((c :: rest).takeWhile fun c => !delimits c),
        (c :: rest).dropWhile fun c => !delimits c)

/-- The elements of a list up to its closing parenthesis. -/
def readItems : ℕ → List Char → Option (Value × List Char)
  | 0, _ => none
  | n + 1, text =>
    match skip text with
    | [] => none
    | c :: rest =>
      if c = ')' then some (.nil, rest)
      else match read n (c :: rest) with
        | none => none
        | some (v, rest) => (readItems n rest).map fun r => (.cons v r.1, r.2)

end

/-- The first value of a text. -/
def skillRead (text : List Char) : Option Value := (read fmt (text.length + 1) text).map Prod.fst

end Reader

section Strings

/-- What is written for a character of a string. -/
def escape (c : Char) : List Char :=
  if c = '\\' then ['\\', '\\'] else if c = '"' then ['\\', '"'] else if c = '\n' then ['\\', 'n'] else [c]

/-- The three replacements do not disturb each other. -/
theorem escaped_eq (text : List Char) : escaped text = text.flatMap escape := by
  unfold escaped replace
  rw [List.flatMap_assoc, List.flatMap_assoc]
  congr 1
  funext c
  unfold escape
  by_cases hslash : c = '\\'
  · subst hslash
    rfl
  · by_cases hquote : c = '"'
    · subst hquote
      rfl
    · by_cases hline : c = '\n'
      · subst hline
        rfl
      · simp [hslash, hquote, hline]

/-- The escape of a character is read as the character. -/
theorem readString_escape (c : Char) (rest : List Char) :
    readString (escape c ++ rest) = (readString rest).map fun r => (c :: r.1, r.2) := by
  unfold escape
  split
  · rename_i h
    subst h
    rfl
  · split
    · rename_i h
      subst h
      rfl
    · split
      · rename_i h
        subst h
        rfl
      · rename_i hslash hquote hline
        rw [List.singleton_append, readString.eq_4]
        · exact hquote
        · intro e rest' hcons
          exact fun _ => hslash hcons

/-- A string is read up to its closing quote. -/
theorem readString_quoted (text rest : List Char) :
    readString (escaped text ++ '"' :: rest) = some (text, rest) := by
  rw [escaped_eq]
  induction text with
  | nil => rfl
  | cons c text ih => rw [List.flatMap_cons, List.append_assoc, readString_escape, ih, Option.map_some]

end Strings

section Reading

variable {fmt : FloatFormat}

/-- No character of a numeral ends an atom. -/
theorem not_delimits_of_numeral {c : Char} (h : Numeral c) : delimits c = false := by
  rcases h with hdigit | hsign
  · cases hdelimits : delimits c with
    | false => rfl
    | true =>
      simp only [delimits, isSpace, Bool.or_eq_true, beq_iff_eq] at hdelimits
      rcases hdelimits with (((((rfl | rfl) | rfl) | rfl) | rfl) | rfl) | rfl <;> exact absurd hdigit (by decide)
  · exact Base.forall_mem_of_all (p := fun c => delimits c = false) (by decide) c hsign

/-- What an atom may be followed by. -/
def Ends (rest : List Char) : Prop := ∀ c, rest.head? = some c → delimits c = true

/-- An atom may end before a delimiter. -/
theorem ends_cons {c : Char} (h : delimits c = true) (rest : List Char) : Ends (c :: rest) := by
  intro c' hc'
  obtain rfl : c = c' := by simpa using hc'
  exact h

/-- What the text of a value starts with. -/
def Opens (text : List Char) : Prop := ∃ c t, text = c :: t ∧ isSpace c = false ∧ c ≠ ')'

/-- An item may begin with what is neither white space nor a closing parenthesis. -/
theorem opens_cons {c : Char} (hspace : isSpace c = false) (hclose : c ≠ ')') (t : List Char) : Opens (c :: t) :=
  ⟨c, t, rfl, hspace, hclose⟩

/-- What follows does not matter to how an item begins. -/
theorem Opens.append {text : List Char} (h : Opens text) (rest : List Char) : Opens (text ++ rest) := by
  obtain ⟨c, t, rfl, hspace, hclose⟩ := h
  exact opens_cons hspace hclose _

/-- An item is not empty. -/
theorem Opens.length_pos {text : List Char} (h : Opens text) : 0 < text.length := by
  obtain ⟨c, t, rfl, -, -⟩ := h
  simp

/-- An atom is read up to its end. -/
theorem read_atom {text rest : List Char} (hne : text ≠ []) (htext : ∀ c ∈ text, delimits c = false)
    (hrest : Ends rest) {n : ℕ} (hn : text.length ≤ n) :
    read fmt n (text ++ rest) = some (atom fmt text, rest) := by
  cases text with
  | nil => exact absurd rfl hne
  | cons c t =>
    obtain ⟨n, rfl⟩ : ∃ m, n = m + 1 := ⟨n - 1, by simp at hn; omega⟩
    have hhead := htext c List.mem_cons_self
    simp only [delimits, Bool.or_eq_false_iff, beq_eq_false_iff_ne] at hhead
    obtain ⟨⟨⟨hspace, hopen⟩, hclose⟩, hquote⟩ := hhead
    have hskip : skip (c :: (t ++ rest)) = c :: (t ++ rest) := skip_cons hspace _
    have hall : ∀ d ∈ c :: t, (!delimits d) = true := fun d hd => by rw [htext d hd]; rfl
    have hstop : rest.takeWhile (fun d => !delimits d) = [] ∧ rest.dropWhile (fun d => !delimits d) = rest := by
      cases rest with
      | nil => exact ⟨rfl, rfl⟩
      | cons d rest => simp [hrest d rfl]
    have htake := @List.takeWhile_append_of_pos _ _ _ rest hall
    have hdrop := @List.dropWhile_append_of_pos _ _ _ rest hall
    rw [List.cons_append] at htake hdrop ⊢
    simp only [read, hskip, if_neg hopen, if_neg hclose, if_neg hquote, htake, hdrop, hstop, List.append_nil]

/-- A quoted string is read back. -/
theorem read_quoted (s : String) {n : ℕ} (hn : 0 < n) (rest : List Char) :
    read fmt n (quoted s ++ rest) = some (.str s, rest) := by
  obtain ⟨n, rfl⟩ : ∃ m, n = m + 1 := ⟨n - 1, by omega⟩
  have hstring := readString_quoted s.toList rest
  have hskip : skip ('"' :: (escaped s.toList ++ '"' :: rest)) = '"' :: (escaped s.toList ++ '"' :: rest) :=
    skip_cons (by decide) _
  simp only [quoted, List.cons_append, List.append_assoc, List.nil_append, read, hskip]
  rw [if_neg (by decide), if_neg (by decide), if_pos trivial, hstring]
  simp

/-- An element of a list is read as one. -/
theorem readItems_value {n : ℕ} {text rest : List Char} {v : Value} (hopens : Opens text)
    (hread : read fmt n text = some (v, rest)) :
    readItems fmt (n + 1) text = (readItems fmt n rest).map fun r => (.cons v r.1, r.2) := by
  obtain ⟨c, t, rfl, hspace, hclose⟩ := hopens
  simp only [readItems, skip_cons hspace, if_neg hclose, hread]

/-- The blank before an element is skipped. -/
theorem readItems_blank (n : ℕ) (text : List Char) : readItems fmt n (' ' :: text) = readItems fmt n text := by
  have hskip : skip (' ' :: text) = skip text :=
    @skip_blank [' '] (Base.forall_mem_of_all (by decide)) text
  cases n with
  | zero => rfl
  | succ n => simp only [readItems, hskip]

/-- A closing parenthesis ends the items. -/
theorem readItems_nil {n : ℕ} (hn : 0 < n) (rest : List Char) :
    readItems fmt n (')' :: rest) = some (.nil, rest) := by
  obtain ⟨n, rfl⟩ : ∃ m, n = m + 1 := ⟨n - 1, by omega⟩
  have hskip : skip (')' :: rest) = ')' :: rest := skip_cons (by decide) _
  simp only [readItems, hskip, if_true]

/-- An opening parenthesis starts a list. -/
theorem read_list (n : ℕ) (text : List Char) : read fmt (n + 1) ('(' :: text) = readItems fmt n text := by
  have hskip : skip ('(' :: text) = '(' :: text := skip_cons (by decide) _
  simp only [read, hskip, if_true]

end Reading

section RoundTrip

variable {fmt : FloatFormat}

/-- A member begins like an item. -/
theorem opens_toSexprMember (m : String × Json) : Opens (toSexprMember fmt m) := by
  obtain ⟨k, v⟩ := m
  rw [toSexprMember]
  exact opens_cons (by decide) (by decide) _

/-- So does a numeral. -/
theorem opens_numeral {c : Char} (h : Numeral c) (t : List Char) : Opens (c :: t) := by
  have hdelimits := not_delimits_of_numeral h
  simp only [delimits, Bool.or_eq_false_iff, beq_eq_false_iff_ne] at hdelimits
  exact opens_cons hdelimits.1.1.1 hdelimits.1.2 t

/-- What begins a number is a character of numerals. -/
theorem numeral_of_head {c : Char} (h : c = '-' ∨ c.isDigit = true) : Numeral c := by
  rcases h with rfl | h
  · exact .inr (by simp)
  · exact .inl h

/-- The text of a value starts with a token. -/
theorem opens_toSexpr {v : Json} (hv : WellFormed fmt v) : Opens (toSexpr fmt v) := by
  have htoken : ∀ c t, c ∈ ['n', 't', 'i', '-', '"', '('] → Opens (c :: t) := by
    intro c t hc
    simp only [List.mem_cons, List.not_mem_nil, or_false] at hc
    rcases hc with rfl | rfl | rfl | rfl | rfl | rfl <;> exact opens_cons (by decide) (by decide) t
  cases v with
  | null => exact htoken 'n' _ (by simp)
  | bool b =>
    cases b with
    | true => exact htoken 't' _ (by simp)
    | false => exact htoken 'n' _ (by simp)
  | int n =>
    obtain ⟨c, t, heq, hc⟩ := head_of_intText n
    rw [toSexpr, heq]
    exact opens_numeral (numeral_of_head hc) t
  | float x =>
    cases x with
    | finite q =>
      obtain ⟨text, hq⟩ := hv
      obtain ⟨c, t, heq, hc⟩ := head_of_repr hq
      rw [toSexpr, reprFloat, heq]
      exact opens_numeral (numeral_of_head hc) t
    | nan => exact htoken 'n' _ (by simp)
    | infinite negative =>
      cases negative with
      | true => exact htoken '-' _ (by simp)
      | false => exact htoken 'i' _ (by simp)
  | str s => exact htoken '"' _ (by simp)
  | arr vs =>
    cases vs with
    | nil => exact htoken '(' _ (by simp)
    | cons v vs => exact htoken '(' _ (by simp)
  | obj ms =>
    cases ms with
    | nil => exact htoken '(' _ (by simp)
    | cons m ms => exact htoken '(' _ (by simp)

/-- The text of an integer is that atom. -/
theorem atom_intText (n : ℤ) : atom fmt (intText n) = .fix n := by
  have hnumber := @number_int fmt [] n stops_nil
  rw [List.append_nil] at hnumber
  rw [atom, hnumber]

/-- So is the text of a float. -/
theorem atom_repr {q : ℚ} {text : List Char} (hq : fmt.parse text = .finite q) :
    atom fmt (fmt.repr q) = .flo q := by
  have hnumber := number_float hq stops_nil
  rw [List.append_nil] at hnumber
  rw [atom, hnumber]
  rfl

/-- The text of a scalar is an atom, and read as one. -/
theorem read_number {text : List Char} {n : ℕ} {rest : List Char} (hopens : Opens text)
    (htext : ∀ c ∈ text, Numeral c) (hn : text.length ≤ n) (hrest : Ends rest) :
    read fmt n (text ++ rest) = some (atom fmt text, rest) := by
  have hne : text ≠ [] := List.length_pos_iff.mp hopens.length_pos
  exact read_atom hne (fun c hc => not_delimits_of_numeral (htext c hc)) hrest hn

/-- A word is read as what it stands for. -/
theorem read_word (text : List Char) {v : Value} (hatom : atom fmt text = v) (hne : text ≠ [])
    (htext : ∀ c ∈ text, delimits c = false) {n : ℕ} {rest : List Char} (hn : text.length ≤ n)
    (hrest : Ends rest) : read fmt n (text ++ rest) = some (v, rest) := by
  rw [read_atom hne htext hrest hn, hatom]

/-- A float is read back. -/
theorem read_float : ∀ {x : PyFloat}, WellFormed fmt (.float x) → ∀ {n : ℕ} {rest : List Char},
    (reprFloat fmt x).length ≤ n → Ends rest →
    read fmt n (reprFloat fmt x ++ rest) = some (Value.ofFloat x, rest)
  | .finite q, hx, n, rest, hn, hrest => by
    have hopens := opens_toSexpr hx
    obtain ⟨text, hq⟩ := hx
    have hread := @read_number fmt _ n rest hopens (numeral_floatText (fmt.repr_text text q hq)) hn hrest
    rw [toSexpr, reprFloat, atom_repr hq] at hread
    exact hread
  | .nan, _, _, _, hn, hrest => read_word "nan".toList rfl (by decide) (Base.forall_mem_of_all (by decide)) hn hrest
  | .infinite false, _, _, _, hn, hrest =>
    read_word "inf".toList rfl (by decide) (Base.forall_mem_of_all (by decide)) hn hrest
  | .infinite true, _, _, _, hn, hrest =>
    read_word "-inf".toList rfl (by decide) (Base.forall_mem_of_all (by decide)) hn hrest

/-- A member is read as the list of its key and its value. -/
theorem read_member {k : String} {v : Json} (hv : WellFormed fmt v) {n : ℕ}
    (hn : (toSexprMember fmt (k, v)).length ≤ n) (rest : List Char)
    (ih : ∀ m, (toSexpr fmt v).length ≤ m →
      read fmt m (toSexpr fmt v ++ ')' :: rest) = some (Value.ofJson v, ')' :: rest)) :
    read fmt n (toSexprMember fmt (k, v) ++ rest) =
      some (.cons (.str k) (.cons (Value.ofJson v) .nil), rest) := by
  have hopens := opens_toSexpr hv
  simp only [toSexprMember, List.cons_append, List.append_assoc, List.length_cons, List.length_append,
    List.nil_append, quoted] at hn ⊢
  obtain ⟨n, rfl⟩ : ∃ m, n = m + 4 := ⟨n - 4, by have := hopens.length_pos; omega⟩
  have hkey := @read_quoted fmt k (n + 2) (by omega) (' ' :: (toSexpr fmt v ++ ')' :: rest))
  rw [quoted, List.cons_append, List.append_assoc, List.singleton_append] at hkey
  rw [read_list, readItems_value (opens_cons (by decide) (by decide) _) hkey, readItems_blank,
    readItems_value (hopens.append _) (ih (n + 1) (by omega)), readItems_nil (by omega)]
  rfl

/-- A list is read when its first element and the further ones are. -/
theorem read_nonempty {n : ℕ} {text more rest : List Char} {v vs : Value} (hopens : Opens text)
    (hvalue : read fmt n (text ++ (more ++ rest)) = some (v, more ++ rest))
    (hmore : readItems fmt n (more ++ rest) = some (vs, rest)) :
    read fmt (n + 2) ('(' :: (text ++ more) ++ rest) = some (.cons v vs, rest) := by
  rw [List.cons_append, List.append_assoc, read_list, readItems_value (hopens.append _) hvalue, hmore]
  rfl

/-- The further elements of a list are read in the same way. -/
theorem readItems_more {n : ℕ} {text more rest : List Char} {v vs : Value} (hopens : Opens text)
    (hvalue : read fmt n (text ++ (more ++ rest)) = some (v, more ++ rest))
    (hmore : readItems fmt n (more ++ rest) = some (vs, rest)) :
    readItems fmt (n + 1) (' ' :: (text ++ more) ++ rest) = some (.cons v vs, rest) := by
  rw [List.cons_append, List.append_assoc, readItems_blank, readItems_value (hopens.append _) hvalue, hmore]
  rfl

/-- What follows an element ends an atom. -/
theorem ends_toSexprItems (vs : List Json) (rest : List Char) : Ends (toSexprItems fmt vs ++ rest) := by
  cases vs with
  | nil => exact ends_cons (by decide) _
  | cons v vs => exact ends_cons (by decide) _

/-- Empty parentheses are read as `nil`. -/
theorem read_empty {n : ℕ} (hn : 2 ≤ n) (rest : List Char) : read fmt n ('(' :: ')' :: rest) = some (.nil, rest) := by
  obtain ⟨n, rfl⟩ : ∃ m, n = m + 2 := ⟨n - 2, by omega⟩
  rw [read_list, readItems_nil (by omega)]

/-- The length of what follows an element. -/
theorem length_toSexprItems_pos (vs : List Json) : 0 < (toSexprItems fmt vs).length := by
  cases vs <;> simp [toSexprItems]

/-- The text of members is not empty. -/
theorem length_toSexprMembers_pos (ms : List (String × Json)) : 0 < (toSexprMembers fmt ms).length := by
  cases ms <;> simp [toSexprMembers]

mutual

/-- The text of a value is read as the value, whatever follows it. -/
theorem read_toSexpr : ∀ (v : Json) (n : ℕ) (rest : List Char), WellFormed fmt v →
    (toSexpr fmt v).length ≤ n → Ends rest →
    read fmt n (toSexpr fmt v ++ rest) = some (Value.ofJson v, rest)
  | .null, _, _, _, hn, hrest => read_word "nil".toList rfl (by decide) (Base.forall_mem_of_all (by decide)) hn hrest
  | .bool true, _, _, _, hn, hrest => read_word "t".toList rfl (by decide) (Base.forall_mem_of_all (by decide)) hn hrest
  | .bool false, _, _, _, hn, hrest =>
    read_word "nil".toList rfl (by decide) (Base.forall_mem_of_all (by decide)) hn hrest
  | .int i, n, rest, hv, hn, hrest => by
    have hread := @read_number fmt _ n rest (opens_toSexpr hv) (numeral_intText i) hn hrest
    rw [toSexpr, atom_intText] at hread
    exact hread
  | .float _, _, _, hv, hn, hrest => read_float hv hn hrest
  | .str s, _, rest, _, hn, _ => read_quoted s (Nat.lt_of_lt_of_le (by simp [toSexpr, quoted]) hn) rest
  | .arr [], _, rest, _, hn, _ => read_empty hn rest
  | .arr (v :: vs), n, rest, ⟨hv, hvs⟩, hn, _ => by
    have hopens := opens_toSexpr hv
    have hpos := hopens.length_pos
    have hmore := @length_toSexprItems_pos fmt vs
    simp only [toSexpr, List.length_cons, List.length_append] at hn
    obtain ⟨n, rfl⟩ : ∃ m, n = m + 2 := ⟨n - 2, by omega⟩
    have hvalue := read_toSexpr v n (toSexprItems fmt vs ++ rest) hv (by omega) (ends_toSexprItems vs rest)
    exact read_nonempty hopens hvalue (readItems_toSexpr vs n rest hvs (by omega))
  | .obj [], _, rest, _, hn, _ => read_empty hn rest
  | .obj ((k, v) :: ms), n, rest, ⟨_, _, hv, hms⟩, hn, _ => by
    have hopens := @opens_toSexprMember fmt (k, v)
    have hpos := hopens.length_pos
    have hmore := @length_toSexprMembers_pos fmt ms
    simp only [toSexpr, List.length_cons, List.length_append] at hn
    obtain ⟨n, rfl⟩ : ∃ m, n = m + 2 := ⟨n - 2, by omega⟩
    have hvalue := @read_member fmt k v hv n (by omega) (toSexprMembers fmt ms ++ rest)
      fun m hm => read_toSexpr v m _ hv hm (ends_cons (by decide) _)
    exact read_nonempty hopens hvalue (readItems_toSexprMembers ms n rest hms (by omega))

/-- The further elements of a list are read back. -/
theorem readItems_toSexpr : ∀ (vs : List Json) (n : ℕ) (rest : List Char),
    PrintableItems fmt (fun _ => True) vs → (toSexprItems fmt vs).length ≤ n →
    readItems fmt n (toSexprItems fmt vs ++ rest) = some (Value.ofItems vs, rest)
  | [], _, rest, _, hn => readItems_nil hn rest
  | v :: vs, n, rest, ⟨hv, hvs⟩, hn => by
    have hopens := opens_toSexpr hv
    have hpos := hopens.length_pos
    have hmore := @length_toSexprItems_pos fmt vs
    simp only [toSexprItems, List.length_cons, List.length_append] at hn
    obtain ⟨n, rfl⟩ : ∃ m, n = m + 1 := ⟨n - 1, by omega⟩
    have hvalue := read_toSexpr v n (toSexprItems fmt vs ++ rest) hv (by omega) (ends_toSexprItems vs rest)
    exact readItems_more hopens hvalue (readItems_toSexpr vs n rest hvs (by omega))

/-- The further members of a dict are read back. -/
theorem readItems_toSexprMembers : ∀ (ms : List (String × Json)) (n : ℕ) (rest : List Char),
    PrintableMembers fmt (fun _ => True) ms → (toSexprMembers fmt ms).length ≤ n →
    readItems fmt n (toSexprMembers fmt ms ++ rest) = some (Value.ofMembers ms, rest)
  | [], _, rest, _, hn => readItems_nil hn rest
  | (k, v) :: ms, n, rest, ⟨_, hv, hms⟩, hn => by
    have hopens := @opens_toSexprMember fmt (k, v)
    have hpos := hopens.length_pos
    have hmore := @length_toSexprMembers_pos fmt ms
    simp only [toSexprMembers, List.length_cons, List.length_append] at hn
    obtain ⟨n, rfl⟩ : ∃ m, n = m + 1 := ⟨n - 1, by omega⟩
    have hvalue := @read_member fmt k v hv n (by omega) (toSexprMembers fmt ms ++ rest)
      fun m hm => read_toSexpr v m _ hv hm (ends_cons (by decide) _)
    exact readItems_more hopens hvalue (readItems_toSexprMembers ms n rest hms (by omega))

end

/-- The plugin reads what the tunnel wrote. -/
theorem skillRead_toSexpr {v : Json} (hv : WellFormed fmt v) :
    skillRead fmt (toSexpr fmt v) = some (Value.ofJson v) := by
  have hread := read_toSexpr v ((toSexpr fmt v).length + 1) [] hv (by omega) (fun c hc => by cases hc)
  rw [List.append_nil] at hread
  rw [skillRead, hread]
  rfl

end RoundTrip

end VirtuosoFlow.Plugin.Sexpr
