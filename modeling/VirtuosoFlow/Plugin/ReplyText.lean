import VirtuosoFlow.Tunnel.Values
import VirtuosoFlow.Plugin.Sexpr

/-!
# The reply that the plugin reads

`main` of `skillrpc.py` prints the pair `(ok payload)` and a line feed; `vfpRpcExec` reads the pair with one
`read`. A payload is a value that `json.loads` gave. It is printed to a file in the encoding of the locale, which
need not have all its characters, and in no encoding half of a surrogate pair, for which any character may stand
here; the recursion limit of the interpreter is left out.
-/

namespace VirtuosoFlow.Plugin.Sexpr

open VirtuosoFlow VirtuosoFlow.JsonText

section Scanned

variable {fmt : FloatFormat} {text : List Char}

/-- A word that is read is a well formed value. -/
theorem wellFormed_word {r : Json × List Char} (h : word text = some r) : WellFormed fmt r.1 := by
  obtain ⟨w, hw, hr⟩ := List.exists_of_findSome?_eq_some h
  split at hr
  · obtain rfl := Option.some.inj hr
    simp only [words, List.mem_cons, List.not_mem_nil, or_false] at hw
    rcases hw with rfl | rfl | rfl | rfl | rfl | rfl <;> trivial
  · cases hr

/-- So is a float that is read. -/
theorem wellFormed_parse (text : List Char) : WellFormed fmt (.float (fmt.parse text)) := by
  cases hparse : fmt.parse text with
  | finite q => exact ⟨text, hparse⟩
  | nan => trivial
  | infinite negative => trivial

/-- So is a number. -/
theorem wellFormed_number {r : Json × List Char} (h : number fmt text = some r) : WellFormed fmt r.1 := by
  unfold number at h
  split at h
  · cases h
  · dsimp only at h
    split at h
    · obtain rfl := Option.some.inj h
      trivial
    · obtain rfl := Option.some.inj h
      exact wellFormed_parse _

/-- An array is well formed if its items are. -/
theorem wellFormed_arr_iff {vs : List Json} : WellFormed fmt (.arr vs) ↔ ∀ v ∈ vs, WellFormed fmt v := by
  have hitems : ∀ vs : List Json, PrintableItems fmt (fun _ => True) vs ↔ ∀ v ∈ vs, WellFormed fmt v := by
    intro vs
    induction vs with
    | nil => simp [PrintableItems]
    | cons v vs ih => rw [PrintableItems, ih, List.forall_mem_cons, WellFormed]
  exact hitems vs

/-- What the scanner gives are values that Python can hold. -/
theorem wellFormed_scanned (n : ℕ) :
    (∀ text r, value fmt n text = some r → WellFormed fmt r.1) ∧
    (∀ text r, items fmt n text = some r → ∀ v ∈ r.1, WellFormed fmt v) ∧
    (∀ text r, member fmt n text = some r → WellFormed fmt r.1.2) ∧
    ∀ text r, members fmt n text = some r → ∀ m ∈ r.1, WellFormed fmt m.2 := by
  induction n with
  | zero =>
    refine ⟨?_, ?_, ?_, ?_⟩
    all_goals
      intro _ _ h
      cases h
  | succ n ih =>
    obtain ⟨hvalue, hitems, hmember, hmembers⟩ := ih
    refine ⟨fun text r h => ?_, fun text r h => ?_, fun text r h => ?_, fun text r h => ?_⟩
    · cases text with
      | nil => cases h
      | cons c rest =>
        rw [value] at h
        split at h
        · obtain ⟨s, _, rfl⟩ := Option.map_eq_some_iff.mp h
          exact wellFormed_str s.1
        · split at h
          · split at h
            · obtain rfl := Option.some.inj h
              exact wellFormed_arr_iff.mpr (by simp)
            · split at h
              · cases h
              · rename_i v left hv
                obtain ⟨vs, hvs, rfl⟩ := Option.map_eq_some_iff.mp h
                exact wellFormed_arr_iff.mpr (List.forall_mem_cons.mpr ⟨hvalue _ _ hv, hitems _ _ hvs⟩)
          · split at h
            · split at h
              · obtain rfl := Option.some.inj h
                exact Tunnel.wellFormed_empty
              · split at h
                · cases h
                · rename_i m left hm
                  obtain ⟨ms, hms, rfl⟩ := Option.map_eq_some_iff.mp h
                  exact Tunnel.wellFormed_empty.update (List.forall_mem_cons.mpr ⟨hmember _ _ hm, hmembers _ _ hms⟩)
            · split at h
              · rename_i found hfound
                obtain rfl := Option.some.inj h
                exact wellFormed_number hfound
              · exact wellFormed_word h
    · rw [items] at h
      split at h
      · cases h
      · split at h
        · obtain rfl := Option.some.inj h
          simp
        · split at h
          · split at h
            · cases h
            · rename_i v left hv
              obtain ⟨vs, hvs, rfl⟩ := Option.map_eq_some_iff.mp h
              exact List.forall_mem_cons.mpr ⟨hvalue _ _ hv, hitems _ _ hvs⟩
          · cases h
    · cases text with
      | nil => cases h
      | cons c rest =>
        rw [member] at h
        split at h
        · split at h
          · cases h
          · split at h
            · obtain ⟨v, hv, rfl⟩ := Option.map_eq_some_iff.mp h
              exact hvalue _ _ hv
            · cases h
        · cases h
    · rw [members] at h
      split at h
      · cases h
      · split at h
        · obtain rfl := Option.some.inj h
          simp
        · split at h
          · split at h
            · cases h
            · rename_i m left hm
              obtain ⟨ms, hms, rfl⟩ := Option.map_eq_some_iff.mp h
              exact List.forall_mem_cons.mpr ⟨hmember _ _ hm, hmembers _ _ hms⟩
          · cases h

/-- What `json.loads` gives is a value that Python can hold. -/
theorem wellFormed_loads {v : Json} (h : loads fmt text = some v) : WellFormed fmt v := by
  unfold loads at h
  cases hvalue : value fmt (text.length + 1) (skip text) with
  | none => simp [hvalue] at h
  | some r =>
    have hread := (wellFormed_scanned _).1 _ _ hvalue
    simp only [hvalue] at h
    split at h
    · obtain rfl := Option.some.inj h
      exact hread
    · cases h

end Scanned

section Lines

variable {fmt : FloatFormat}

/-- An escaped text holds no line end. -/
theorem newline_not_mem_escaped (s : String) : '\n' ∉ escaped s.toList := by
  rw [escaped_eq, List.mem_flatMap]
  rintro ⟨c, _, hc⟩
  unfold escape at hc
  split at hc
  · simp at hc
  · split at hc
    · simp at hc
    · split at hc
      · simp at hc
      · rename_i hline
        exact hline (List.mem_singleton.mp hc).symm

/-- Neither does a quoted one. -/
theorem newline_not_mem_quoted (s : String) : '\n' ∉ quoted s := by
  simp [quoted, newline_not_mem_escaped]

/-- Neither does a numeral. -/
theorem newline_not_mem_numerals {text : List Char} (h : ∀ c ∈ text, Numeral c) : '\n' ∉ text := by
  intro hmem
  have hdelimits := not_delimits_of_numeral (h _ hmem)
  exact absurd hdelimits (by decide)

mutual

/-- The text of a value is one line. -/
theorem newline_not_mem_toSexpr : ∀ v : Json, WellFormed fmt v → '\n' ∉ toSexpr fmt v
  | .null, _ => by simp [toSexpr]
  | .bool true, _ => by simp [toSexpr]
  | .bool false, _ => by simp [toSexpr]
  | .int n, _ => newline_not_mem_numerals (numeral_intText n)
  | .float (.finite q), ⟨text, hq⟩ => newline_not_mem_numerals (numeral_floatText (fmt.repr_text text q hq))
  | .float .nan, _ => by simp [toSexpr, reprFloat]
  | .float (.infinite true), _ => by simp [toSexpr, reprFloat]
  | .float (.infinite false), _ => by simp [toSexpr, reprFloat]
  | .str s, _ => newline_not_mem_quoted s
  | .arr [], _ => by simp [toSexpr]
  | .arr (v :: vs), ⟨hv, hvs⟩ => by
    simp [toSexpr, newline_not_mem_toSexpr v hv, newline_not_mem_items vs hvs]
  | .obj [], _ => by simp [toSexpr]
  | .obj ((k, v) :: ms), ⟨_, _, hv, hms⟩ => by
    simp [toSexpr, toSexprMember, newline_not_mem_quoted, newline_not_mem_toSexpr v hv, newline_not_mem_members ms hms]

/-- Neither do the texts of items. -/
theorem newline_not_mem_items : ∀ vs : List Json, PrintableItems fmt (fun _ => True) vs → '\n' ∉ toSexprItems fmt vs
  | [], _ => by simp [toSexprItems]
  | v :: vs, ⟨hv, hvs⟩ => by simp [toSexprItems, newline_not_mem_toSexpr v hv, newline_not_mem_items vs hvs]

/-- Neither do those of members. -/
theorem newline_not_mem_members : ∀ ms : List (String × Json), PrintableMembers fmt (fun _ => True) ms →
    '\n' ∉ toSexprMembers fmt ms
  | [], _ => by simp [toSexprMembers]
  | (k, v) :: ms, ⟨_, hv, hms⟩ => by
    simp [toSexprMembers, toSexprMember, newline_not_mem_quoted, newline_not_mem_toSexpr v hv,
      newline_not_mem_members ms hms]

end

end Lines

section Encoding

/-- The encoding of the standard output. -/
structure Stdout where
  encodes : Char → Bool
  ascii : ∀ c : Char, c.toNat < 128 → encodes c = true

/-- `sys.stdout.write(text)`; nothing where it raises `UnicodeEncodeError`. The whole text is encoded before any of
it is written. -/
def Stdout.write (out : Stdout) (text : List Char) : Option (List Char) :=
  if text.all out.encodes then some text else none

mutual

/-- The characters of the strings and keys of a value. -/
def texts : Json → List Char
  | .str s => s.toList
  | .arr vs => textsItems vs
  | .obj ms => textsMembers ms
  | _ => []

/-- The same for the elements of a list. -/
def textsItems : List Json → List Char
  | [] => []
  | v :: vs => texts v ++ textsItems vs

/-- The same for the members of a dict. -/
def textsMembers : List (String × Json) → List Char
  | [] => []
  | (k, v) :: ms => k.toList ++ (texts v ++ textsMembers ms)

end

/-- Every string and key of a value can be encoded. -/
def Stdout.Encodes (out : Stdout) (v : Json) : Prop := ∀ c ∈ texts v, out.encodes c = true

variable {fmt : FloatFormat} {out : Stdout}

/-- What the writer adds is ASCII. -/
theorem Stdout.encodes_ascii (out : Stdout) (text : List Char) (h : (text.all fun c => c.toNat < 128) = true) :
    text.all out.encodes = true :=
  List.all_eq_true.mpr fun c hc => out.ascii c (Base.forall_mem_of_all h c hc)

/-- A quoted text can be encoded if its characters can. -/
theorem encodes_quoted (s : String) : (quoted s).all out.encodes = s.toList.all out.encodes := by
  have hescape : ∀ c, (escape c).all out.encodes = out.encodes c := by
    intro c
    have hslash : out.encodes '\\' = true := out.ascii _ (by decide)
    unfold escape
    split
    · rename_i h
      subst h
      simp [hslash]
    · split
      · rename_i h
        subst h
        simp [hslash]
      · split
        · rename_i h
          subst h
          simp [hslash, out.ascii 'n' (by decide), out.ascii '\n' (by decide)]
        · simp
  have hquote : out.encodes '"' = true := out.ascii _ (by decide)
  rw [quoted, escaped_eq, List.all_cons, List.all_append, List.all_flatMap, hquote]
  simp [hescape, hquote]

/-- A numeral can always be encoded. -/
theorem encodes_numerals {text : List Char} (h : ∀ c ∈ text, Numeral c) : text.all out.encodes = true :=
  List.all_eq_true.mpr fun c hc => out.ascii c (by
    obtain ⟨-, hhigh⟩ := ascii_numeral (h c hc)
    omega)

mutual

/-- The text of a value can be encoded as far as its strings and keys can. -/
theorem encodes_toSexpr : ∀ v : Json, WellFormed fmt v →
    (toSexpr fmt v).all out.encodes = (texts v).all out.encodes
  | .null, _ => out.encodes_ascii "nil".toList (by decide)
  | .bool true, _ => out.encodes_ascii "t".toList (by decide)
  | .bool false, _ => out.encodes_ascii "nil".toList (by decide)
  | .int n, _ => encodes_numerals (numeral_intText n)
  | .float (.finite q), ⟨text, hq⟩ => encodes_numerals (numeral_floatText (fmt.repr_text text q hq))
  | .float .nan, _ => out.encodes_ascii "nan".toList (by decide)
  | .float (.infinite true), _ => out.encodes_ascii "-inf".toList (by decide)
  | .float (.infinite false), _ => out.encodes_ascii "inf".toList (by decide)
  | .str s, _ => encodes_quoted s
  | .arr [], _ => out.encodes_ascii "()".toList (by decide)
  | .arr (v :: vs), ⟨hv, hvs⟩ => by
    have hopen : out.encodes '(' = true := out.ascii _ (by decide)
    rw [toSexpr, texts, textsItems, List.all_cons, List.all_append, List.all_append, hopen, encodes_toSexpr v hv,
      encodes_items vs hvs, Bool.true_and]
  | .obj [], _ => out.encodes_ascii "()".toList (by decide)
  | .obj ((k, v) :: ms), ⟨_, _, hv, hms⟩ => by
    have hopen : out.encodes '(' = true := out.ascii _ (by decide)
    rw [toSexpr, texts, textsMembers, List.all_cons, List.all_append, List.all_append, List.all_append, hopen,
      encodes_member k v hv, encodes_members ms hms, Bool.true_and, Bool.and_assoc]

/-- Items can be encoded if their texts can. -/
theorem encodes_items : ∀ vs : List Json, PrintableItems fmt (fun _ => True) vs →
    (toSexprItems fmt vs).all out.encodes = (textsItems vs).all out.encodes
  | [], _ => out.encodes_ascii [')'] (by decide)
  | v :: vs, ⟨hv, hvs⟩ => by
    have hblank : out.encodes ' ' = true := out.ascii _ (by decide)
    rw [toSexprItems, textsItems, List.all_cons, List.all_append, List.all_append, hblank, encodes_toSexpr v hv,
      encodes_items vs hvs, Bool.true_and]

/-- So can a member. -/
theorem encodes_member (k : String) (v : Json) (hv : WellFormed fmt v) :
    (toSexprMember fmt (k, v)).all out.encodes = (k.toList.all out.encodes && (texts v).all out.encodes) := by
  have hopen : out.encodes '(' = true := out.ascii _ (by decide)
  have hblank : out.encodes ' ' = true := out.ascii _ (by decide)
  have hclose : [')'].all out.encodes = true := out.encodes_ascii [')'] (by decide)
  rw [toSexprMember, List.all_cons, List.all_append, List.all_cons, List.all_append, hopen, hblank, hclose,
    encodes_quoted, encodes_toSexpr v hv, Bool.true_and, Bool.true_and, Bool.and_true]

/-- So can several members. -/
theorem encodes_members : ∀ ms : List (String × Json), PrintableMembers fmt (fun _ => True) ms →
    (toSexprMembers fmt ms).all out.encodes = (textsMembers ms).all out.encodes
  | [], _ => out.encodes_ascii [')'] (by decide)
  | (k, v) :: ms, ⟨_, hv, hms⟩ => by
    have hblank : out.encodes ' ' = true := out.ascii _ (by decide)
    rw [toSexprMembers, textsMembers, List.all_cons, List.all_append, List.all_append, List.all_append, hblank,
      encodes_member k v hv, encodes_members ms hms, Bool.true_and, Bool.and_assoc]

end

end Encoding

section Replies

variable {fmt : FloatFormat} {text : List Char} {v : Json}

/-- What `main` prints for a result or for an error. -/
def replyText (fmt : FloatFormat) (ok : Bool) (payload : Json) : List Char :=
  (if ok then "(t ".toList else "(nil ".toList) ++ (toSexpr fmt payload ++ ")\n".toList)

/-- The pair that `vfpRpcExec` returns. -/
def replyPair (ok : Bool) (payload : Json) : Value :=
  .cons (if ok then .t else .nil) (.cons (Value.ofJson payload) .nil)

/-- The pair is read, and only the line feed after it is left. -/
theorem read_reply (hv : WellFormed fmt v) (ok : Bool) {n : ℕ} (hn : (replyText fmt ok v).length ≤ n) :
    read fmt n (replyText fmt ok v) = some (replyPair ok v, ['\n']) := by
  have hopens := opens_toSexpr hv
  have hpos := hopens.length_pos
  set word := if ok then "t".toList else "nil".toList with hword
  have htext : replyText fmt ok v = '(' :: (word ++ ' ' :: (toSexpr fmt v ++ ')' :: ['\n'])) := by
    rw [hword, replyText]
    cases ok <;> rfl
  have hlength : word.length + (toSexpr fmt v).length + 4 ≤ n := by
    rw [htext] at hn
    simp only [List.length_cons, List.length_append, List.length_nil] at hn
    omega
  obtain ⟨n, rfl⟩ : ∃ m, n = m + 4 := ⟨n - 4, by omega⟩
  have hfirst : Opens word ∧ read fmt (n + 2) (word ++ ' ' :: (toSexpr fmt v ++ ')' :: ['\n'])) =
      some (if ok then .t else .nil, ' ' :: (toSexpr fmt v ++ ')' :: ['\n'])) := by
    rw [hword] at hlength ⊢
    cases ok with
    | true =>
      refine ⟨opens_cons (by decide) (by decide) _, ?_⟩
      exact read_word "t".toList rfl (by decide) (Base.forall_mem_of_all (by decide)) (by simp)
        (ends_cons (by decide) _)
    | false =>
      have hshort : "nil".toList.length ≤ n + 2 := by
        simp only [Bool.false_eq_true, if_false] at hlength
        omega
      refine ⟨opens_cons (by decide) (by decide) _, ?_⟩
      exact read_word "nil".toList rfl (by decide) (Base.forall_mem_of_all (by decide)) hshort (ends_cons (by decide) _)
  have hvalue := read_toSexpr v (n + 1) (')' :: ['\n']) hv (by omega) (ends_cons (by decide) _)
  rw [htext, read_list, readItems_value (hfirst.1.append _) hfirst.2, readItems_blank,
    readItems_value (hopens.append _) hvalue, readItems_nil (by omega)]
  rfl

/-- A reply is written if the strings and keys of its payload can be encoded, and lost otherwise. -/
theorem write_reply (out : Stdout) (hv : WellFormed fmt v) (ok : Bool) :
    (out.Encodes v → out.write (replyText fmt ok v) = some (replyText fmt ok v)) ∧
    (¬ out.Encodes v → out.write (replyText fmt ok v) = none) := by
  have hopen : (if ok then "(t ".toList else "(nil ".toList).all out.encodes = true := by
    cases ok <;> exact out.encodes_ascii _ (by decide)
  have hclose : ")\n".toList.all out.encodes = true := out.encodes_ascii _ (by decide)
  have hall : (replyText fmt ok v).all out.encodes = true ↔ out.Encodes v := by
    rw [replyText, List.all_append, List.all_append, hopen, hclose, encodes_toSexpr v hv, Bool.true_and,
      Bool.and_true, List.all_eq_true]
    rfl
  exact ⟨fun h => if_pos (hall.mpr h), fun h => if_neg fun htrue => h (hall.mp htrue)⟩

/-- For every value that `json.loads` gave: the reader takes the whole of its text, which has no line feed, as
its translation; and it takes the pair in a reply of the helper in one read exactly if the strings and keys of the
value can be encoded. -/
theorem reply_read_iff (out : Stdout) (h : loads fmt text = some v) :
    (∀ n, (toSexpr fmt v).length ≤ n → read fmt n (toSexpr fmt v) = some (Value.ofJson v, [])) ∧
    '\n' ∉ toSexpr fmt v ∧
    ((∀ ok, (out.write (replyText fmt ok v)).bind (skillRead fmt) = some (replyPair ok v)) ↔ out.Encodes v) := by
  have hv := wellFormed_loads h
  refine ⟨fun n hn => ?_, newline_not_mem_toSexpr v hv, fun hread => ?_, fun hencodes ok => ?_⟩
  · have hread := read_toSexpr v n [] hv hn fun c hc => by cases hc
    rwa [List.append_nil] at hread
  · by_contra hlost
    have hone := hread true
    rw [(write_reply out hv true).2 hlost] at hone
    cases hone
  · rw [(write_reply out hv ok).1 hencodes, Option.bind_some, skillRead, read_reply hv ok (by omega)]
    rfl

/-- The standard output in a Latin-1 locale. -/
def Stdout.latin1 : Stdout where
  encodes c := decide (c.toNat < 256)
  ascii c hc := by
    rw [decide_eq_true_eq]
    omega

/-- The standard output in UTF-8, where every character is one. -/
def Stdout.unicode : Stdout where
  encodes _ := true
  ascii _ _ := rfl

/-- The standard output in UTF-8, with U+FFFD for half of a surrogate pair. -/
def Stdout.utf8 : Stdout where
  encodes c := decide (c ≠ '\uFFFD')
  ascii c hc := by
    rw [decide_eq_true_eq]
    rintro rfl
    exact absurd hc (by decide)

/-- A reply with quotes and line ends in it. -/
theorem reply_read_iff_sample :
    (Stdout.utf8.write (replyText .sample true
      (.obj [("message", .str "a\"b\\n\nc"), ("count", .int (-2))]))).bind (skillRead .sample) =
      some (replyPair true (.obj [("message", .str "a\"b\\n\nc"), ("count", .int (-2))])) := by
  have hwell : WellFormed FloatFormat.sample (.obj [("message", .str "a\"b\\n\nc"), ("count", .int (-2))]) := by
    refine wellFormed_obj_iff.mpr ⟨by simp, ?_⟩
    simp only [List.forall_mem_cons, List.not_mem_nil, false_imp_iff, implies_true, and_true]
    exact ⟨wellFormed_str _, trivial⟩
  refine ((reply_read_iff Stdout.utf8 (loads_dumps none hwell)).2.2.mpr ?_) true
  intro c hc
  exact List.all_eq_true.mp (show List.all _ Stdout.utf8.encodes = true from by decide) c hc

/-- A reply that holds one character. -/
def sampleReply (c : Char) : Json := .obj [("x", .str (String.singleton c))]

/-- The reply of the samples is well formed. -/
theorem wellFormed_sampleReply (c : Char) : WellFormed fmt (sampleReply c) :=
  wellFormed_obj_iff.mpr ⟨by simp, by simp [wellFormed_str]⟩

/-- `json.loads` gives the value, and nothing is printed of it. -/
theorem reply_lost :
    (∃ text, loads .sample text = some (sampleReply '\uFFFD') ∧
      Stdout.utf8.write (replyText .sample true (sampleReply '\uFFFD')) = none) ∧
    ∃ text, loads .sample text = some (sampleReply 'Ω') ∧
      Stdout.latin1.write (replyText .sample true (sampleReply 'Ω')) = none := by
  have hlost : ∀ (out : Stdout) (c : Char), out.encodes c = false →
      out.write (replyText .sample true (sampleReply c)) = none := by
    intro out c hc
    refine (write_reply out (wellFormed_sampleReply c) true).2 fun hencodes => ?_
    have hone := hencodes c (by simp [sampleReply, texts, textsMembers])
    rw [hc] at hone
    cases hone
  exact ⟨⟨_, loads_dumps none (wellFormed_sampleReply _), hlost _ _ (by decide)⟩,
    _, loads_dumps none (wellFormed_sampleReply _), hlost _ _ (by decide)⟩

end Replies

end VirtuosoFlow.Plugin.Sexpr
