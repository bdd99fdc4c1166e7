import VirtuosoFlow.Plugin.Encoder

/-!
# What the helper reads of an encoded tree

The text that `vfpToJson` makes of a tree is read by `json.load` as the tree exactly if no string of the
tree holds a control character that `vfpJsonEsc` passes on. A dict has each key once: of a key that an
object repeats, it keeps the first place and the last value.
-/

namespace VirtuosoFlow.Plugin.Encoder

open VirtuosoFlow VirtuosoFlow.JsonText

mutual

/-- The value that Python holds for a tree. -/
def dictOf : Json → Json
  | .arr vs => .arr (dictItems vs)
  | .obj ms => .obj (Obj.update [] (dictMembers ms))
  | v => v

/-- The same for the elements of an array. -/
def dictItems : List Json → List Json
  | [] => []
  | v :: vs => dictOf v :: dictItems vs

/-- The same for the members of an object. -/
def dictMembers : List (String × Json) → List (String × Json)
  | [] => []
  | (k, v) :: ms => (k, dictOf v) :: dictMembers ms

end

section Distinct

variable {fmt : FloatFormat}

mutual

/-- A tree whose objects have each key once is held as it is. -/
theorem dictOf_of_wellFormed : ∀ v : Json, WellFormed fmt v → dictOf v = v
  | .null, _ | .bool _, _ | .int _, _ | .float _, _ | .str _, _ => rfl
  | .arr vs, hv => by rw [dictOf, dictItems_of_wellFormed vs hv]
  | .obj ms, ⟨hnodup, hms⟩ => by rw [dictOf, dictMembers_of_wellFormed ms hms, update_of_nodup hnodup]

/-- Well formed items are read as they are. -/
theorem dictItems_of_wellFormed : ∀ vs : List Json, PrintableItems fmt (fun _ => True) vs → dictItems vs = vs
  | [], _ => rfl
  | v :: vs, ⟨hv, hvs⟩ => by rw [dictItems, dictOf_of_wellFormed v hv, dictItems_of_wellFormed vs hvs]

/-- So are well formed members. -/
theorem dictMembers_of_wellFormed : ∀ ms : List (String × Json), PrintableMembers fmt (fun _ => True) ms →
    dictMembers ms = ms
  | [], _ => rfl
  | (k, v) :: ms, ⟨_, hv, hms⟩ => by
    rw [dictMembers, dictOf_of_wellFormed v hv, dictMembers_of_wellFormed ms hms]

end

end Distinct

section Strings

/-- A string with a raw control character is refused. -/
theorem characters_raw {cs : List Char} (h : cs.any rawControl = true) (rest : List Char) (n : ℕ) :
    characters n (cs.flatMap escapeChar ++ '"' :: rest) = none := by
  induction cs generalizing n with
  | nil => cases h
  | cons c cs ih =>
    cases n with
    | zero => rfl
    | succ n =>
      have hquote : (escapeChar c ++ (cs.flatMap escapeChar ++ '"' :: rest)).head? ≠ some '"' := by
        have hhead := escapeChar_head c
        cases hesc : escapeChar c with
        | nil =>
          unfold escapeChar at hesc
          split at hesc <;> cases hesc
        | cons e t =>
          rw [hesc] at hhead
          simpa using hhead
      rw [List.flatMap_cons, List.append_assoc, characters, if_neg hquote]
      cases hraw : rawControl c with
      | false =>
        rw [List.any_cons, hraw, Bool.false_or] at h
        rw [character_escapeChar c hraw]
        simp only [ih h, Option.map_none]
      | true =>
        have hlow : c.toNat < 32 ∧ c ≠ '\n' ∧ c ≠ '\t' := by
          simpa [rawControl, and_assoc] using hraw
        have hslash : c ≠ '\\' := by
          rintro rfl
          exact absurd hlow.1 (by decide)
        have hplain : escapeChar c = [c] := by
          unfold escapeChar
          split
          · exact absurd rfl hslash
          · exact absurd hlow.1 (by decide)
          · exact absurd rfl hlow.2.1
          · exact absurd rfl hlow.2.2
          · rfl
        simp [hplain, character, hslash, hlow.1]

/-- A string is read up to its closing quote, or refused. -/
theorem string_text (s : String) (rest : List Char) :
    string (s.toList.flatMap escapeChar ++ '"' :: rest) = if sendable (.str s) then some (s, rest) else none := by
  cases hsend : sendable (.str s) with
  | true => exact @string_quote encoderStyle s (plain_of_sendable hsend) rest
  | false =>
    have hraw : s.toList.any rawControl = true := by simpa [sendable] using hsend
    rw [string, characters_raw hraw]
    rfl

end Strings

section Values

variable {fmt : FloatFormat}

/-- The text of a tree starts with a token that closes nothing. -/
theorem head_text (d : ℕ) {v : Json} (hv : Floatless v) :
    ∃ c t, print fmt encoderStyle d v = c :: t ∧ Starts c := by
  cases v with
  | float x => exact hv.elim
  | null => exact ⟨'n', _, rfl, by decide, by decide, by decide⟩
  | bool b =>
    cases b with
    | true => exact ⟨'t', _, rfl, by decide, by decide, by decide⟩
    | false => exact ⟨'f', _, rfl, by decide, by decide, by decide⟩
  | int n =>
    obtain ⟨c, t, heq, hc⟩ := head_of_intText n
    exact ⟨c, t, heq, starts_number hc⟩
  | str s => exact ⟨'"', _, rfl, by decide, by decide, by decide⟩
  | arr vs => cases vs <;> exact ⟨'[', _, rfl, by decide, by decide, by decide⟩
  | obj ms => cases ms <;> exact ⟨'{', _, rfl, by decide, by decide, by decide⟩

/-- The text of a value begins with no white space. -/
theorem skip_text (d : ℕ) {v : Json} (hv : Floatless v) (rest : List Char) :
    skip (print fmt encoderStyle d v ++ rest) = print fmt encoderStyle d v ++ rest := by
  obtain ⟨c, t, heq, hc, -⟩ := @head_text fmt d v hv
  rw [heq]
  exact skip_cons hc _

variable {d n : ℕ} {k : String} {v : Json} {vs : List Json} {m : String × Json} {ms : List (String × Json)}
  {rest : List Char}

/-- An array is its first element and the further ones. -/
theorem value_arr_text (hv : Floatless v) :
    value fmt (n + 1) (print fmt encoderStyle d (.arr (v :: vs)) ++ rest) =
      (value fmt n (print fmt encoderStyle (d + 1) v ++ (printItems fmt encoderStyle d vs ++ rest))).bind
        fun r => (items fmt n r.2).map fun p => (.arr (r.1 :: p.1), p.2) := by
  have hskip := @skip_text fmt (d + 1) v hv (printItems fmt encoderStyle d vs ++ rest)
  have hopen : (print fmt encoderStyle (d + 1) v ++ (printItems fmt encoderStyle d vs ++ rest)).head? ≠ some ']' := by
    obtain ⟨c, t, heq, -, hc, -⟩ := @head_text fmt (d + 1) v hv
    simpa [heq] using hc
  have htext : print fmt encoderStyle d (.arr (v :: vs)) ++ rest =
      '[' :: (print fmt encoderStyle (d + 1) v ++ (printItems fmt encoderStyle d vs ++ rest)) := by
    rw [print, List.cons_append, List.append_assoc, List.append_assoc]
    rfl
  rw [htext, value, if_neg (by decide), if_pos rfl, hskip, if_neg hopen]
  cases value fmt n (print fmt encoderStyle (d + 1) v ++ (printItems fmt encoderStyle d vs ++ rest)) <;> rfl

/-- An item is read, and then the items behind it. -/
theorem items_cons_text (hv : Floatless v) :
    items fmt (n + 1) (printItems fmt encoderStyle d (v :: vs) ++ rest) =
      (value fmt n (print fmt encoderStyle (d + 1) v ++ (printItems fmt encoderStyle d vs ++ rest))).bind
        fun r => (items fmt n r.2).map fun p => (r.1 :: p.1, p.2) := by
  have hskip := @skip_text fmt (d + 1) v hv (printItems fmt encoderStyle d vs ++ rest)
  have hcomma : isSpace ',' = false := by decide
  have htext : printItems fmt encoderStyle d (v :: vs) ++ rest =
      ',' :: (print fmt encoderStyle (d + 1) v ++ (printItems fmt encoderStyle d vs ++ rest)) := by
    rw [printItems, List.cons_append, List.append_assoc, List.append_assoc]
    rfl
  rw [htext, items, skip_cons hcomma]
  simp only [if_neg (by decide : ¬ ',' = ']'), if_true, hskip]
  cases value fmt n (print fmt encoderStyle (d + 1) v ++ (printItems fmt encoderStyle d vs ++ rest)) <;> rfl

/-- A member is its key and its value. -/
theorem member_text (hv : Floatless v) :
    member fmt (n + 1) (printMember fmt encoderStyle d (k, v) ++ rest) =
      if sendable (.str k) then (value fmt n (print fmt encoderStyle (d + 1) v ++ rest)).map fun r => ((k, r.1), r.2)
      else none := by
  have hstring := string_text k (':' :: (print fmt encoderStyle (d + 1) v ++ rest))
  have hcolon : skip (':' :: (print fmt encoderStyle (d + 1) v ++ rest)) =
      ':' :: (print fmt encoderStyle (d + 1) v ++ rest) := skip_cons (by decide) _
  have htext : printMember fmt encoderStyle d (k, v) ++ rest =
      '"' :: (k.toList.flatMap escapeChar ++ '"' :: ':' :: (print fmt encoderStyle (d + 1) v ++ rest)) := by
    rw [printMember_encoder, quoteJson, List.cons_append, List.append_assoc, List.singleton_append, vfpJsonEsc]
  rw [htext, member, if_pos rfl, hstring]
  cases sendable (.str k) with
  | false => rfl
  | true => simp only [if_true, hcolon, List.head?_cons, List.tail_cons, skip_text (d + 1) hv]

/-- The text of a member begins with a quote. -/
theorem head_member (d : ℕ) (m : String × Json) (rest : List Char) :
    ∃ t, printMember fmt encoderStyle d m ++ rest = '"' :: t := by
  obtain ⟨k, v⟩ := m
  exact ⟨_, by rw [printMember_encoder, quoteJson, List.cons_append]⟩

/-- An object is its first member and the further ones. -/
theorem value_obj_text :
    value fmt (n + 1) (print fmt encoderStyle d (.obj (m :: ms)) ++ rest) =
      (member fmt n (printMember fmt encoderStyle d m ++ (printMembers fmt encoderStyle d ms ++ rest))).bind
        fun r => (members fmt n r.2).map fun p => (.obj (Obj.update [] (r.1 :: p.1)), p.2) := by
  obtain ⟨t, ht⟩ := @head_member fmt d m (printMembers fmt encoderStyle d ms ++ rest)
  have hskip : skip ('"' :: t) = '"' :: t := skip_cons (by decide) t
  have hopen : ('"' :: t).head? ≠ some '}' := by simp
  have htext : print fmt encoderStyle d (.obj (m :: ms)) ++ rest =
      '{' :: (printMember fmt encoderStyle d m ++ (printMembers fmt encoderStyle d ms ++ rest)) := by
    rw [print, List.cons_append, List.append_assoc, List.append_assoc]
    rfl
  rw [htext, ht, value, if_neg (by decide), if_neg (by decide), if_pos rfl, hskip, if_neg hopen]
  cases member fmt n ('"' :: t) <;> rfl

/-- A member is read, and then the members behind it. -/
theorem members_cons_text :
    members fmt (n + 1) (printMembers fmt encoderStyle d (m :: ms) ++ rest) =
      (member fmt n (printMember fmt encoderStyle d m ++ (printMembers fmt encoderStyle d ms ++ rest))).bind
        fun r => (members fmt n r.2).map fun p => (r.1 :: p.1, p.2) := by
  obtain ⟨t, ht⟩ := @head_member fmt d m (printMembers fmt encoderStyle d ms ++ rest)
  have hskip : skip ('"' :: t) = '"' :: t := skip_cons (by decide) t
  have hcomma : isSpace ',' = false := by decide
  have htext : printMembers fmt encoderStyle d (m :: ms) ++ rest =
      ',' :: (printMember fmt encoderStyle d m ++ (printMembers fmt encoderStyle d ms ++ rest)) := by
    rw [printMembers, List.cons_append, List.append_assoc, List.append_assoc]
    rfl
  rw [htext, ht, members, skip_cons hcomma]
  simp only [if_neg (by decide : ¬ ',' = '}'), if_true, hskip]
  cases member fmt n ('"' :: t) <;> rfl

mutual

/-- The text of a tree is read as the tree, or refused. -/
theorem value_text : ∀ (v : Json) (d n : ℕ) (rest : List Char), Floatless v →
    (print fmt encoderStyle d v).length ≤ n → Stops rest →
    value fmt n (print fmt encoderStyle d v ++ rest) = if sendable v then some (dictOf v, rest) else none
  | .null, _, _, rest, _, hn, _ => value_word "null".toList (by simp [words, dictOf]) hn rest
  | .bool true, _, _, rest, _, hn, _ => value_word "true".toList (by simp [words, dictOf]) hn rest
  | .bool false, _, _, rest, _, hn, _ => value_word "false".toList (by simp [words, dictOf]) hn rest
  | .int i, _, _, _, _, hn, hrest => value_int i hn hrest
  | .str s, d, n, rest, _, hn, _ => by
    obtain ⟨n, rfl⟩ : ∃ m, n = m + 1 := ⟨n - 1, by simp [print, quote] at hn; omega⟩
    have htext : print fmt encoderStyle d (.str s) ++ rest = '"' :: (s.toList.flatMap escapeChar ++ '"' :: rest) := by
      simp [print, quote, encoderStyle]
    rw [htext, value, if_pos rfl, string_text]
    cases sendable (.str s) <;> rfl
  | .arr [], _, _, rest, _, hn, _ => (value_nil (Nat.lt_of_lt_of_le (by simp [print]) hn) rest).1
  | .arr (v :: vs), d, n, rest, ⟨hv, hvs⟩, hn, _ => by
    simp only [print, List.length_cons, List.length_append] at hn
    obtain ⟨n, rfl⟩ : ∃ m, n = m + 1 := ⟨n - 1, by omega⟩
    have hvalue := value_text v (d + 1) n (printItems fmt encoderStyle d vs ++ rest) hv (by omega)
      (stops_printItems d vs rest)
    have hitems := items_text vs d n rest hvs (by omega)
    rw [value_arr_text hv, hvalue, sendable, sendableItems]
    cases sendable v with
    | false => rfl
    | true =>
      simp only [if_true, Option.bind_some, hitems, Bool.true_and]
      cases sendableItems vs <;> rfl
  | .obj [], _, _, rest, _, hn, _ => (value_nil (Nat.lt_of_lt_of_le (by simp [print]) hn) rest).2
  | .obj ((k, v) :: ms), d, n, rest, ⟨hv, hms⟩, hn, _ => by
    simp only [print, List.length_cons, List.length_append] at hn
    obtain ⟨n, rfl⟩ : ∃ m, n = m + 2 := ⟨n - 2, by simp [printMember, quote] at hn; omega⟩
    have hvalue := value_text v (d + 1) n (printMembers fmt encoderStyle d ms ++ rest) hv
      (by simp [printMember, quote] at hn; omega) (stops_printMembers d ms rest)
    have hmembers := members_text ms d (n + 1) rest hms (by omega)
    have hsend : sendable (.obj ((k, v) :: ms)) = (sendable (.str k) && sendable v && sendableMembers ms) := rfl
    rw [value_obj_text, member_text hv, hvalue, hsend]
    cases sendable (.str k) with
    | false => rfl
    | true =>
      cases sendable v with
      | false => rfl
      | true =>
        simp only [if_true, Option.map_some, Option.bind_some, hmembers, Bool.true_and]
        cases sendableMembers ms <;> rfl

/-- So is the text of the further elements of an array. -/
theorem items_text : ∀ (vs : List Json) (d n : ℕ) (rest : List Char), FloatlessItems vs →
    (printItems fmt encoderStyle d vs).length ≤ n →
    items fmt n (printItems fmt encoderStyle d vs ++ rest) =
      if sendableItems vs then some (dictItems vs, rest) else none
  | [], d, _, rest, _, hn => items_nil d (Nat.lt_of_lt_of_le (by simp [printItems]) hn) rest
  | v :: vs, d, n, rest, ⟨hv, hvs⟩, hn => by
    simp only [printItems, List.length_cons, List.length_append] at hn
    obtain ⟨n, rfl⟩ : ∃ m, n = m + 1 := ⟨n - 1, by omega⟩
    have hvalue := value_text v (d + 1) n (printItems fmt encoderStyle d vs ++ rest) hv (by omega)
      (stops_printItems d vs rest)
    have hitems := items_text vs d n rest hvs (by omega)
    rw [items_cons_text hv, hvalue, sendableItems]
    cases sendable v with
    | false => rfl
    | true =>
      simp only [if_true, Option.bind_some, hitems, Bool.true_and]
      cases sendableItems vs <;> rfl

/-- So is the text of the further members of an object. -/
theorem members_text : ∀ (ms : List (String × Json)) (d n : ℕ) (rest : List Char), FloatlessMembers ms →
    (printMembers fmt encoderStyle d ms).length ≤ n →
    members fmt n (printMembers fmt encoderStyle d ms ++ rest) =
      if sendableMembers ms then some (dictMembers ms, rest) else none
  | [], d, _, rest, _, hn => members_nil d (Nat.lt_of_lt_of_le (by simp [printMembers]) hn) rest
  | (k, v) :: ms, d, n, rest, ⟨hv, hms⟩, hn => by
    simp only [printMembers, List.length_cons, List.length_append] at hn
    obtain ⟨n, rfl⟩ : ∃ m, n = m + 2 := ⟨n - 2, by simp [printMember, quote] at hn; omega⟩
    have hvalue := value_text v (d + 1) n (printMembers fmt encoderStyle d ms ++ rest) hv
      (by simp [printMember, quote] at hn; omega) (stops_printMembers d ms rest)
    have hmembers := members_text ms d (n + 1) rest hms (by omega)
    have hsend : sendableMembers ((k, v) :: ms) = (sendable (.str k) && sendable v && sendableMembers ms) := rfl
    rw [members_cons_text, member_text hv, hvalue, hsend]
    cases sendable (.str k) with
    | false => rfl
    | true =>
      cases sendable v with
      | false => rfl
      | true =>
        simp only [if_true, Option.map_some, Option.bind_some, hmembers, Bool.true_and]
        cases sendableMembers ms <;> rfl

end

/-- What `json.load` reads of an encoded tree. -/
theorem loads_vfpToJson_eq {printL : Value → String} {printG : ℚ → String} (hv : Floatless v) :
    loads fmt (vfpToJson printL printG (treeOf v)) = if sendable v then some (dictOf v) else none := by
  have htext := @vfpToJson_treeOf fmt printL printG v 0 hv
  have hread := @value_text fmt v 0 ((print fmt encoderStyle 0 v).length + 1) [] hv (by omega) stops_nil
  have hskip := @skip_text fmt 0 v hv []
  rw [List.append_nil] at hread hskip
  rw [htext, loads, hskip, hread]
  cases sendable v <;> simp [skip]

/-- Of every tree of `vfpJObj` and `vfpJArr` over strings, integers, booleans and `nil`: `json.load` reads the
encoded text as the tree exactly if no string holds a control character other than a newline and a tab; and
Python holds a tree as it is where no object repeats a key. -/
theorem encoding_read_iff {printL : Value → String} {printG : ℚ → String} (hv : Floatless v) :
    (loads fmt (vfpToJson printL printG (treeOf v)) = some (dictOf v) ↔ sendable v = true) ∧
      (WellFormed fmt v → dictOf v = v) := by
  refine ⟨?_, dictOf_of_wellFormed v⟩
  rw [loads_vfpToJson_eq hv]
  cases sendable v <;> simp

end Values

/-- The outcome of an action on an instance with this label. -/
def sampleLabelled (label : String) : Json :=
  .obj [("label", .str label), ("pins", .arr [.int 2, .null, .bool true, .arr []])]

/-- The sample holds no floats. -/
theorem floatless_sampleLabelled (label : String) : Floatless (sampleLabelled label) :=
  ⟨trivial, ⟨trivial, trivial, trivial, trivial, trivial⟩, trivial⟩

/-- A label with a tab and a line end is read back. -/
theorem encoding_read_iff_sample :
    loads .sample (vfpToJson (fun _ => "") (fun _ => "") (treeOf (sampleLabelled "M1\t(bias)\n"))) =
      some (dictOf (sampleLabelled "M1\t(bias)\n")) :=
  (encoding_read_iff (floatless_sampleLabelled _)).1.mpr (by decide)

/-- A label with a carriage return makes a text that `json.load` refuses. -/
theorem carriage_return_refused :
    loads .sample (vfpToJson (fun _ => "") (fun _ => "") (treeOf (sampleLabelled "M1\r"))) = none := by
  rw [loads_vfpToJson_eq (floatless_sampleLabelled _)]
  rfl

end VirtuosoFlow.Plugin.Encoder
