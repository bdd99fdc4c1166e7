import VirtuosoFlow.JsonText
import Mathlib.Data.List.TakeWhile

/-!
# White space around JSON texts

What `json.loads` reads from a text it reads from the text with white space around it:
each scanner stops where it stopped before.
-/

namespace VirtuosoFlow.JsonText

open VirtuosoFlow

section Trailing

variable {fmt : FloatFormat} {blank : List Char}

/-- What follows does not change the code unit that is read. -/
theorem codeUnit_append {text rest : List Char} {n : ℕ} (h : codeUnit text = some (n, rest))
    (blank : List Char) : codeUnit (text ++ blank) = some (n, rest ++ blank) := by
  unfold codeUnit at h
  split at h
  · rename_i a b c d rest'
    simp only [List.cons_append, codeUnit]
    split at h
    · simp only [Option.some.injEq, Prod.mk.injEq] at h ⊢
      exact ⟨h.1, by rw [h.2]⟩
    · cases h
  · cases h

/-- What follows does not change the escape that is read. -/
theorem unicodeEscape_append {text rest : List Char} {c : Char} (h : unicodeEscape text = some (c, rest))
    (blank : List Char) : unicodeEscape (text ++ blank) = some (c, rest ++ blank) := by
  unfold unicodeEscape at h ⊢
  cases hunit : codeUnit text with
  | none => simp [hunit] at h
  | some r =>
    obtain ⟨n, rest'⟩ := r
    rw [hunit] at h
    rw [codeUnit_append hunit blank]
    simp only at h ⊢
    split at h
    · rename_i hhigh
      rw [if_pos hhigh]
      split at h
      · rename_i rest''
        simp only [List.cons_append]
        cases hunit' : codeUnit rest'' with
        | none => simp [hunit'] at h
        | some r' =>
          obtain ⟨m, rest₃⟩ := r'
          rw [hunit'] at h
          rw [codeUnit_append hunit' blank]
          simp only at h ⊢
          split at h
          · rename_i hlow
            rw [if_pos hlow]
            simp only [Option.some.injEq, Prod.mk.injEq] at h ⊢
            exact ⟨h.1, by rw [h.2]⟩
          · cases h
      · cases h
    · rename_i hhigh
      rw [if_neg hhigh]
      split at h
      · cases h
      · rename_i hlow
        rw [if_neg hlow]
        simp only [Option.some.injEq, Prod.mk.injEq] at h ⊢
        exact ⟨h.1, by rw [h.2]⟩

/-- What follows does not change the character that is read. -/
theorem character_append {text rest : List Char} {c : Char} (h : character text = some (c, rest))
    (blank : List Char) : character (text ++ blank) = some (c, rest ++ blank) := by
  cases text with
  | nil => cases h
  | cons a t =>
    simp only [character, List.cons_append] at h ⊢
    split at h
    · rename_i hslash
      rw [if_pos hslash]
      cases t with
      | nil => cases h
      | cons e t =>
        simp only [List.cons_append] at h ⊢
        split at h
        · rename_i hu
          rw [if_pos hu]
          exact unicodeEscape_append h blank
        · rename_i hu
          rw [if_neg hu]
          cases hletter : letterEscape e with
          | none => simp [hletter] at h
          | some x =>
            simp only [hletter, Option.map_some, Option.some.injEq, Prod.mk.injEq] at h ⊢
            exact ⟨h.1, by rw [h.2]⟩
    · rename_i hslash
      rw [if_neg hslash]
      split at h
      · cases h
      · rename_i hlow
        rw [if_neg hlow]
        simp only [Option.some.injEq, Prod.mk.injEq] at h ⊢
        exact ⟨h.1, by rw [h.2]⟩

/-- What follows does not change the characters up to the closing quote. -/
theorem characters_append {n m : ℕ} {text rest cs : List Char} (h : characters n text = some (cs, rest))
    (hm : n ≤ m) (blank : List Char) : characters m (text ++ blank) = some (cs, rest ++ blank) := by
  induction n generalizing m text rest cs with
  | zero => cases h
  | succ n ih =>
    obtain ⟨m, rfl⟩ : ∃ k, m = k + 1 := ⟨m - 1, by omega⟩
    cases text with
    | nil => simp [characters, character] at h
    | cons a t =>
      have hhead : (a :: t ++ blank).head? = (a :: t).head? := rfl
      rw [characters] at h ⊢
      by_cases hquote : (a :: t).head? = some '"'
      · rw [if_pos hquote] at h
        rw [if_pos (hhead.trans hquote)]
        simp only [Option.some.injEq, Prod.mk.injEq] at h ⊢
        exact ⟨h.1, by rw [← h.2]; rfl⟩
      · rw [if_neg hquote] at h
        rw [if_neg (fun heq => hquote (hhead.symm.trans heq))]
        cases hchar : character (a :: t) with
        | none => simp [hchar] at h
        | some r =>
          obtain ⟨c, rest'⟩ := r
          rw [hchar] at h
          rw [character_append hchar blank]
          simp only at h ⊢
          cases hrest : characters n rest' with
          | none => simp [hrest] at h
          | some r =>
            rw [hrest] at h
            rw [ih hrest (by omega)]
            simp only [Option.map_some, Option.some.injEq, Prod.mk.injEq] at h ⊢
            exact ⟨h.1, by rw [h.2]⟩

/-- What follows does not change the string that is read. -/
theorem string_append {text rest : List Char} {s : String} (h : string text = some (s, rest))
    (blank : List Char) : string (text ++ blank) = some (s, rest ++ blank) := by
  unfold string at h ⊢
  cases hchars : characters (text.length + 1) text with
  | none => simp [hchars] at h
  | some r =>
    rw [hchars] at h
    rw [characters_append hchars (by simp) blank]
    simp only [Option.map_some, Option.some.injEq, Prod.mk.injEq] at h ⊢
    exact ⟨h.1, by rw [h.2]⟩

/-- A number may end before white space. -/
theorem stops_of_blank (h : ∀ c ∈ blank, isSpace c = true) : Stops blank := by
  have hstops := stops_blank h stops_nil
  rwa [List.append_nil] at hstops

/-- White space that follows holds none of the digits of a text. -/
theorem isDigit_append {text : List Char} (h : ∀ c ∈ blank, isSpace c = true) :
    (text ++ blank).takeWhile Char.isDigit = text.takeWhile Char.isDigit ∧
      (text ++ blank).dropWhile Char.isDigit = text.dropWhile Char.isDigit ++ blank := by
  have hstops : ∀ c, blank.head? = some c → c.isDigit = false :=
    fun c hc => (stops_of_blank h c hc).1
  have hspan := @span_digits (text.takeWhile Char.isDigit) (text.dropWhile Char.isDigit ++ blank)
    (fun c hc => List.mem_takeWhile_imp hc) (by
      intro c hc
      cases hdrop : text.dropWhile Char.isDigit with
      | nil =>
        rw [hdrop] at hc
        exact hstops c hc
      | cons a t =>
        rw [hdrop] at hc
        obtain rfl : a = c := by simpa using hc
        have hhead := List.head_dropWhile_not Char.isDigit (w := by rw [hdrop]; simp)
        simpa [hdrop] using hhead)
  rw [← List.append_assoc, List.takeWhile_append_dropWhile] at hspan
  exact hspan

/-- White space that follows does not change the whole part of a number. -/
theorem takeWhole_blank {text rest whole : List Char} (hblank : ∀ c ∈ blank, isSpace c = true)
    (h : takeWhole text = some (whole, rest)) :
    takeWhole (text ++ blank) = some (whole, rest ++ blank) := by
  cases text with
  | nil => cases h
  | cons c t =>
    obtain ⟨htake, hdrop⟩ := @isDigit_append _ t hblank
    simp only [takeWhole, List.cons_append, htake, hdrop] at h ⊢
    split at h
    · rename_i hzero
      rw [if_pos hzero]
      simp only [Option.some.injEq, Prod.mk.injEq] at h ⊢
      exact ⟨h.1, by rw [h.2]⟩
    · rename_i hzero
      rw [if_neg hzero]
      split at h
      · rename_i hdigit
        rw [if_pos hdigit]
        simp only [Option.some.injEq, Prod.mk.injEq] at h ⊢
        exact ⟨h.1, by rw [h.2]⟩
      · cases h

/-- White space that follows does not change the digits that are taken. -/
theorem takeDigits_blank (hblank : ∀ c ∈ blank, isSpace c = true) (start text whole : List Char) :
    takeDigits start (text ++ blank) (whole ++ blank) =
      ((takeDigits start text whole).1, (takeDigits start text whole).2 ++ blank) := by
  obtain ⟨htake, hdrop⟩ := @isDigit_append _ text hblank
  unfold takeDigits
  rw [htake, hdrop]
  split <;> rfl

/-- White space that follows does not change the fraction. -/
theorem takeFraction_blank (hblank : ∀ c ∈ blank, isSpace c = true) (text : List Char) :
    takeFraction (text ++ blank) = ((takeFraction text).1, (takeFraction text).2 ++ blank) := by
  cases text with
  | nil =>
    have hdot : blank.head? ≠ some '.' := fun h => (stops_of_blank hblank '.' h).2.1 rfl
    rw [List.nil_append, takeFraction_none hdot, takeFraction_none (by simp)]
    rfl
  | cons c t =>
    by_cases hc : c = '.'
    · subst hc
      have hdigits := takeDigits_blank hblank ['.'] t ('.' :: t)
      simpa [takeFraction] using hdigits
    · simp [takeFraction, hc]

/-- White space that follows does not change the exponent. -/
theorem takeExponent_blank (hblank : ∀ c ∈ blank, isSpace c = true) (text : List Char) :
    takeExponent (text ++ blank) = ((takeExponent text).1, (takeExponent text).2 ++ blank) := by
  have hstops := stops_of_blank hblank
  cases text with
  | nil =>
    rw [List.nil_append, takeExponent_none hstops]
    rfl
  | cons e t =>
    by_cases he : e = 'e' ∨ e = 'E'
    · cases t with
      | nil =>
        cases blank with
        | nil => simp [takeExponent, he]
        | cons b blank =>
          have hsign : ¬ (b = '+' ∨ b = '-') := by
            have hb := hblank b List.mem_cons_self
            rintro (rfl | rfl) <;> revert hb <;> decide
          have hnone := takeDigits_blank hblank [e] [] [e]
          simp only [List.nil_append, List.cons_append] at hnone
          simp only [takeExponent, List.cons_append, List.nil_append, if_pos he, if_neg hsign, hnone]
          rfl
      | cons s t =>
        by_cases hsign : s = '+' ∨ s = '-'
        · have hdigits := takeDigits_blank hblank [e, s] t (e :: s :: t)
          simpa [takeExponent, he, hsign] using hdigits
        · have hdigits := takeDigits_blank hblank [e] (s :: t) (e :: s :: t)
          simpa [takeExponent, he, hsign] using hdigits
    · simp [takeExponent, he]

/-- A number does not depend on the white space after the text. -/
theorem number_blank {text rest : List Char} {v : Json} (hblank : ∀ c ∈ blank, isSpace c = true)
    (h : number fmt text = some (v, rest)) : number fmt (text ++ blank) = some (v, rest ++ blank) := by
  have hsign : takeSign (text ++ blank) = ((takeSign text).1, (takeSign text).2 ++ blank) := by
    cases text with
    | nil => simp [number, takeSign, takeWhole] at h
    | cons c t =>
      by_cases hc : c = '-'
      · subst hc
        rfl
      · simp [takeSign, hc]
  unfold number at h ⊢
  rw [hsign]
  cases hwhole : takeWhole (takeSign text).2 with
  | none => simp [hwhole] at h
  | some r =>
    obtain ⟨whole, rest'⟩ := r
    rw [hwhole] at h
    simp only [takeWhole_blank hblank hwhole, takeFraction_blank hblank, takeExponent_blank hblank] at h ⊢
    split at h
    · rename_i hint
      rw [if_pos hint]
      simp only [Option.some.injEq, Prod.mk.injEq] at h ⊢
      exact ⟨h.1, by rw [h.2]⟩
    · rename_i hint
      rw [if_neg hint]
      simp only [Option.some.injEq, Prod.mk.injEq] at h ⊢
      exact ⟨h.1, by rw [h.2]⟩

/-- A word at the head of a text is one of the list. -/
theorem word_eq_some {text rest : List Char} {v : Json} (h : word text = some (v, rest)) :
    ∃ w, (w, v) ∈ words ∧ text = w ++ rest := by
  unfold word at h
  obtain ⟨⟨w, v'⟩, hmem, heq⟩ := List.exists_of_findSome?_eq_some h
  simp only at heq
  split at heq
  · rename_i hprefix
    simp only [Option.some.injEq, Prod.mk.injEq] at heq
    obtain ⟨rfl, rfl⟩ := heq
    refine ⟨w, hmem, ?_⟩
    exact (List.prefix_iff_eq_append.mp (List.isPrefixOf_iff_prefix.mp hprefix)).symm
  · cases heq

/-- White space after a text is not skipped where a token comes before it. -/
theorem skip_append {text t : List Char} {c : Char} (h : skip text = c :: t) (blank : List Char) :
    skip (text ++ blank) = c :: (t ++ blank) := by
  unfold skip at h ⊢
  rw [List.dropWhile_append, h]
  rfl

/-- With as much fuel or more, what is read from a text is read from the text with white space
after it. -/
structure Extends (fmt : FloatFormat) (blank : List Char) (n : ℕ) : Prop where
  value : ∀ {m text v rest}, n ≤ m → value fmt n text = some (v, rest) →
    value fmt m (text ++ blank) = some (v, rest ++ blank)
  items : ∀ {m text vs rest}, n ≤ m → items fmt n text = some (vs, rest) →
    items fmt m (text ++ blank) = some (vs, rest ++ blank)
  member : ∀ {m text e rest}, n ≤ m → member fmt n text = some (e, rest) →
    member fmt m (text ++ blank) = some (e, rest ++ blank)
  members : ∀ {m text es rest}, n ≤ m → members fmt n text = some (es, rest) →
    members fmt m (text ++ blank) = some (es, rest ++ blank)

section Step

variable {n m : ℕ} {text rest : List Char}

/-- A value is read from a text that has one. -/
theorem value_ne_nil {v : Json} (h : value fmt n text = some (v, rest)) : text ≠ [] := by
  rintro rfl
  cases n <;> simp [value] at h

/-- A member is read from some text. -/
theorem member_ne_nil {e : String × Json} (h : member fmt n text = some (e, rest)) : text ≠ [] := by
  rintro rfl
  cases n <;> simp [member] at h

/-- White space that follows an array is left over. -/
theorem arr_blank (ih : Extends fmt blank n) (hm : n ≤ m) {v : Json}
    (h : value fmt (n + 1) ('[' :: text) = some (v, rest)) :
    value fmt (m + 1) ('[' :: (text ++ blank)) = some (v, rest ++ blank) := by
  rw [value, if_neg (by decide), if_pos rfl] at h ⊢
  cases hskip : skip text with
  | nil =>
    rw [hskip] at h
    cases n <;> simp [value] at h
  | cons c t =>
    rw [skip_append hskip blank]
    rw [hskip] at h
    by_cases hclose : c = ']'
    · have hhead : ∀ u, (c :: u).head? = some ']' := fun u => by rw [hclose]; rfl
      rw [if_pos (hhead t)] at h
      rw [if_pos (hhead (t ++ blank))]
      simp only [List.tail_cons, Option.some.injEq, Prod.mk.injEq] at h ⊢
      exact ⟨h.1, by rw [h.2]⟩
    · have hopen : ¬ (c :: t).head? = some ']' := by simpa using hclose
      have hopen' : ¬ (c :: (t ++ blank)).head? = some ']' := by simpa using hclose
      rw [if_neg hopen] at h
      rw [if_neg hopen']
      cases hvalue : value fmt n (c :: t) with
      | none => simp [hvalue] at h
      | some r =>
        obtain ⟨x, rest'⟩ := r
        have hmore := ih.value hm hvalue
        rw [List.cons_append] at hmore
        simp only [hvalue, hmore] at h ⊢
        cases hitems : items fmt n rest' with
        | none => simp [hitems] at h
        | some r =>
          rw [hitems] at h
          rw [ih.items hm hitems]
          simp only [Option.map_some, Option.some.injEq, Prod.mk.injEq] at h ⊢
          exact ⟨h.1, by rw [h.2]⟩

/-- White space that follows an object is left over. -/
theorem obj_blank (ih : Extends fmt blank n) (hm : n ≤ m) {v : Json}
    (h : value fmt (n + 1) ('{' :: text) = some (v, rest)) :
    value fmt (m + 1) ('{' :: (text ++ blank)) = some (v, rest ++ blank) := by
  rw [value, if_neg (by decide), if_neg (by decide), if_pos rfl] at h ⊢
  cases hskip : skip text with
  | nil =>
    rw [hskip] at h
    cases n <;> simp [member] at h
  | cons c t =>
    rw [skip_append hskip blank]
    rw [hskip] at h
    by_cases hclose : c = '}'
    · have hhead : ∀ u, (c :: u).head? = some '}' := fun u => by rw [hclose]; rfl
      rw [if_pos (hhead t)] at h
      rw [if_pos (hhead (t ++ blank))]
      simp only [List.tail_cons, Option.some.injEq, Prod.mk.injEq] at h ⊢
      exact ⟨h.1, by rw [h.2]⟩
    · have hopen : ¬ (c :: t).head? = some '}' := by simpa using hclose
      have hopen' : ¬ (c :: (t ++ blank)).head? = some '}' := by simpa using hclose
      rw [if_neg hopen] at h
      rw [if_neg hopen']
      cases hmember : member fmt n (c :: t) with
      | none => simp [hmember] at h
      | some r =>
        obtain ⟨e, rest'⟩ := r
        have hmore := ih.member hm hmember
        rw [List.cons_append] at hmore
        simp only [hmember, hmore] at h ⊢
        cases hmembers : members fmt n rest' with
        | none => simp [hmembers] at h
        | some r =>
          rw [hmembers] at h
          rw [ih.members hm hmembers]
          simp only [Option.map_some, Option.some.injEq, Prod.mk.injEq] at h ⊢
          exact ⟨h.1, by rw [h.2]⟩

/-- White space that follows a scalar is left over. -/
theorem scalar_blank (hblank : ∀ c ∈ blank, isSpace c = true) {c : Char} (hbracket : c ≠ '[')
    (hbrace : c ≠ '{') {v : Json} (h : value fmt (n + 1) (c :: text) = some (v, rest)) :
    value fmt (m + 1) (c :: (text ++ blank)) = some (v, rest ++ blank) := by
  rw [value] at h ⊢
  by_cases hquote : c = '"'
  · rw [if_pos hquote] at h ⊢
    cases hstring : string text with
    | none => simp [hstring] at h
    | some r =>
      rw [hstring] at h
      rw [string_append hstring blank]
      simp only [Option.map_some, Option.some.injEq, Prod.mk.injEq] at h ⊢
      exact ⟨h.1, by rw [h.2]⟩
  · rw [if_neg hquote, if_neg hbracket, if_neg hbrace] at h ⊢
    cases hnumber : number fmt (c :: text) with
    | some r =>
      have hmore := number_blank hblank hnumber
      rw [List.cons_append] at hmore
      simp only [hnumber, hmore, Option.some.injEq] at h ⊢
      rw [h]
    | none =>
      rw [hnumber] at h
      obtain ⟨w, hw, heq⟩ := word_eq_some h
      have hread := @value_word fmt w _ hw (w.length + 1) (by omega) (rest ++ blank)
      rw [← List.append_assoc, ← heq, List.cons_append, value, if_neg hquote, if_neg hbracket,
        if_neg hbrace] at hread
      exact hread

/-- White space that follows the items is left over. -/
theorem items_blank (ih : Extends fmt blank n) (hm : n ≤ m) {vs : List Json}
    (h : items fmt (n + 1) text = some (vs, rest)) :
    items fmt (m + 1) (text ++ blank) = some (vs, rest ++ blank) := by
  rw [items] at h ⊢
  cases hskip : skip text with
  | nil => simp [hskip] at h
  | cons c t =>
    rw [skip_append hskip blank]
    rw [hskip] at h
    simp only at h ⊢
    by_cases hclose : c = ']'
    · simp only [hclose, if_true, Option.some.injEq, Prod.mk.injEq] at h ⊢
      exact ⟨h.1, by rw [h.2]⟩
    · rw [if_neg hclose] at h ⊢
      by_cases hcomma : c = ','
      · rw [if_pos hcomma] at h ⊢
        cases hvalue : value fmt n (skip t) with
        | none => simp [hvalue] at h
        | some r =>
          obtain ⟨x, rest'⟩ := r
          cases hnext : skip t with
          | nil => exact absurd hnext (value_ne_nil hvalue)
          | cons a u =>
            have hmore := ih.value hm hvalue
            rw [hnext, List.cons_append, ← skip_append hnext blank] at hmore
            simp only [hvalue, hmore] at h ⊢
            cases hitems : items fmt n rest' with
            | none => simp [hitems] at h
            | some r =>
              rw [hitems] at h
              rw [ih.items hm hitems]
              simp only [Option.map_some, Option.some.injEq, Prod.mk.injEq] at h ⊢
              exact ⟨h.1, by rw [h.2]⟩
      · rw [if_neg hcomma] at h
        cases h

/-- White space that follows the members is left over. -/
theorem members_blank (ih : Extends fmt blank n) (hm : n ≤ m) {es : List (String × Json)}
    (h : members fmt (n + 1) text = some (es, rest)) :
    members fmt (m + 1) (text ++ blank) = some (es, rest ++ blank) := by
  rw [members] at h ⊢
  cases hskip : skip text with
  | nil => simp [hskip] at h
  | cons c t =>
    rw [skip_append hskip blank]
    rw [hskip] at h
    simp only at h ⊢
    by_cases hclose : c = '}'
    · simp only [hclose, if_true, Option.some.injEq, Prod.mk.injEq] at h ⊢
      exact ⟨h.1, by rw [h.2]⟩
    · rw [if_neg hclose] at h ⊢
      by_cases hcomma : c = ','
      · rw [if_pos hcomma] at h ⊢
        cases hmember : member fmt n (skip t) with
        | none => simp [hmember] at h
        | some r =>
          obtain ⟨e, rest'⟩ := r
          cases hnext : skip t with
          | nil => exact absurd hnext (member_ne_nil hmember)
          | cons a u =>
            have hmore := ih.member hm hmember
            rw [hnext, List.cons_append, ← skip_append hnext blank] at hmore
            simp only [hmember, hmore] at h ⊢
            cases hmembers : members fmt n rest' with
            | none => simp [hmembers] at h
            | some r =>
              rw [hmembers] at h
              rw [ih.members hm hmembers]
              simp only [Option.map_some, Option.some.injEq, Prod.mk.injEq] at h ⊢
              exact ⟨h.1, by rw [h.2]⟩
      · rw [if_neg hcomma] at h
        cases h

/-- White space that follows a member is left over. -/
theorem member_blank (ih : Extends fmt blank n) (hm : n ≤ m) {e : String × Json}
    (h : member fmt (n + 1) text = some (e, rest)) :
    member fmt (m + 1) (text ++ blank) = some (e, rest ++ blank) := by
  cases text with
  | nil => cases h
  | cons c t =>
    rw [List.cons_append]
    rw [member] at h ⊢
    by_cases hquote : c = '"'
    · rw [if_pos hquote] at h ⊢
      cases hstring : string t with
      | none => simp [hstring] at h
      | some r =>
        obtain ⟨k, rest'⟩ := r
        simp only [hstring, string_append hstring blank] at h ⊢
        cases hskip : skip rest' with
        | nil => simp [hskip] at h
        | cons a u =>
          rw [skip_append hskip blank]
          rw [hskip] at h
          by_cases hcolon : a = ':'
          · have hhead : ∀ w, (a :: w).head? = some ':' := fun w => by rw [hcolon]; rfl
            rw [if_pos (hhead u)] at h
            rw [if_pos (hhead (u ++ blank))]
            simp only [List.tail_cons] at h ⊢
            cases hvalue : value fmt n (skip u) with
            | none => simp [hvalue] at h
            | some r =>
              cases hnext : skip u with
              | nil => exact absurd hnext (value_ne_nil hvalue)
              | cons b w =>
                have hmore := ih.value hm hvalue
                rw [hnext, List.cons_append, ← skip_append hnext blank] at hmore
                rw [hvalue] at h
                rw [hmore]
                simp only [Option.map_some, Option.some.injEq, Prod.mk.injEq] at h ⊢
                exact ⟨h.1, by rw [h.2]⟩
          · have hother : ¬ (a :: u).head? = some ':' := by simpa using hcolon
            rw [if_neg hother] at h
            cases h
    · rw [if_neg hquote] at h
      cases h

end Step

/-- The reader leaves the white space that follows, whatever its bound. -/
theorem extends_blank (hblank : ∀ c ∈ blank, isSpace c = true) (n : ℕ) : Extends fmt blank n := by
  induction n with
  | zero => exact ⟨fun _ h => (by cases h), fun _ h => (by cases h), fun _ h => (by cases h),
      fun _ h => (by cases h)⟩
  | succ n ih =>
    refine ⟨fun {m text v rest} hm h => ?_, fun {m text vs rest} hm h => ?_,
      fun {m text e rest} hm h => ?_, fun {m text es rest} hm h => ?_⟩
    all_goals obtain ⟨m, rfl⟩ : ∃ k, m = k + 1 := ⟨m - 1, by omega⟩
    · cases text with
      | nil => exact absurd rfl (value_ne_nil h)
      | cons c t =>
        by_cases hbracket : c = '['
        · subst hbracket
          exact arr_blank ih (by omega) h
        · by_cases hbrace : c = '{'
          · subst hbrace
            exact obj_blank ih (by omega) h
          · exact scalar_blank hblank hbracket hbrace h
    · exact items_blank ih (by omega) h
    · exact member_blank ih (by omega) h
    · exact members_blank ih (by omega) h

/-- `json.loads` does not mind white space around a value. -/
theorem loads_blank {before after text : List Char} {v : Json} (hbefore : ∀ c ∈ before, isSpace c = true)
    (hafter : ∀ c ∈ after, isSpace c = true) (h : loads fmt text = some v) :
    loads fmt (before ++ (text ++ after)) = some v := by
  unfold loads at h ⊢
  cases hvalue : value fmt (text.length + 1) (skip text) with
  | none => simp [hvalue] at h
  | some r =>
    obtain ⟨x, rest⟩ := r
    rw [hvalue] at h
    cases hskip : skip text with
    | nil => exact absurd hskip (value_ne_nil hvalue)
    | cons c t =>
      have hmore := (@extends_blank fmt _ hafter _).value
        (m := (before ++ (text ++ after)).length + 1)
        (by simp only [List.length_append]; omega) hvalue
      have hend : skip rest = [] → skip (rest ++ after) = [] := by
        intro hnil
        unfold skip at hnil ⊢
        rw [List.dropWhile_append, hnil]
        exact List.dropWhile_eq_nil_iff.mpr hafter
      rw [hskip, List.cons_append, ← skip_append hskip after] at hmore
      rw [skip_blank hbefore, hmore]
      simp only at h ⊢
      split at h
      · rename_i hnil
        rw [if_pos (hend hnil)]
        exact h
      · cases h

end Trailing

end VirtuosoFlow.JsonText
