import AbiTypings.Json.Reader
import AbiTypings.Proofs.Types.Tokens

/-!
# What stands behind a value

The reader of a value stops where the value ends, and what stands behind it makes no difference,
so that a value is the same by itself and inside a longer text. Only a number needs a character
behind it, or the end of the text, with which it cannot go on.
-/

namespace AbiTypings.Json

open Decimal Text Outcome
open TypeString (StopsAt span_of_stopsAt)

variable {cs rest tail : List Char} {v : Value} {c : Char}

/-! ## Blanks -/

theorem skipBlanks_append (h : skipBlanks cs ≠ []) (tail : List Char) :
    skipBlanks (cs ++ tail) = skipBlanks cs ++ tail := by
  have hsome : (cs.dropWhile isJsonBlank).isEmpty = false := List.isEmpty_eq_false_iff.mpr h
  rw [skipBlanks, List.dropWhile_append, hsome]
  rfl

theorem skipBlanks_append_of_cons (h : skipBlanks cs = c :: rest) (tail : List Char) :
    skipBlanks (cs ++ tail) = c :: (rest ++ tail) := by
  rw [skipBlanks_append (by rw [h]; exact List.cons_ne_nil c rest), h, List.cons_append]

theorem skipBlanks_append_of_nil (h : skipBlanks cs = []) (tail : List Char) :
    skipBlanks (cs ++ tail) = skipBlanks tail := by
  have hnone : (cs.dropWhile isJsonBlank).isEmpty = true := List.isEmpty_iff.mpr h
  rw [skipBlanks, List.dropWhile_append, hnone]
  rfl

theorem skipBlanks_append_ne_cons (hsome : skipBlanks cs ≠ [])
    (h : ∀ rest, skipBlanks cs ≠ c :: rest) (tail : List Char) :
    ∀ rest, skipBlanks (cs ++ tail) ≠ c :: rest := by
  obtain ⟨d, behind, hcs⟩ := List.exists_cons_of_ne_nil hsome
  intro rest heq
  rw [skipBlanks_append_of_cons hcs] at heq
  obtain ⟨rfl, _⟩ := List.cons.inj heq
  exact h behind hcs

/-! ## Numbers -/

/-- The characters that a number may go on with. -/
def isNumberPart (c : Char) : Bool := isAsciiDigit c || c == '.' || c == 'e' || c == 'E'

theorem stopsAt_mono {p q : Char → Bool} (h : StopsAt p cs) (hpq : ∀ c, q c = true → p c = true) :
    StopsAt q cs := by
  intro c rest hcs
  have hp := h c rest hcs
  rw [Bool.eq_false_iff] at hp ⊢
  exact fun hq ↦ hp (hpq c hq)

theorem stopsAt_cons {p : Char → Bool} : StopsAt p (c :: rest) ↔ p c = false := by
  constructor
  · exact fun h ↦ h c rest rfl
  · rintro h d _ hcons
    obtain ⟨rfl, rfl⟩ := List.cons.inj hcons
    exact h

theorem takeDigits_append (hstop : StopsAt isAsciiDigit ((takeDigits cs).2 ++ tail)) :
    takeDigits (cs ++ tail) = ((takeDigits cs).1, (takeDigits cs).2 ++ tail) := by
  have hdigits : ∀ d ∈ cs.takeWhile isAsciiDigit, isAsciiDigit d = true :=
    fun d hd ↦ List.mem_takeWhile_imp hd
  obtain ⟨htake, hdrop⟩ := span_of_stopsAt hdigits hstop
  rw [takeDigits, ← List.append_assoc, List.takeWhile_append_dropWhile] at htake hdrop
  rw [takeDigits, htake, hdrop]
  rfl

theorem takeSign_append (h : cs ≠ []) (tail : List Char) :
    takeSign (cs ++ tail) = ((takeSign cs).1, (takeSign cs).2 ++ tail) := by
  cases cs with
  | nil => exact absurd rfl h
  | cons c cs =>
      rw [List.cons_append]
      unfold takeSign
      split <;> simp_all

/-- The characters that a number may go on with before its exponent. -/
def isFractionPart (c : Char) : Bool := isAsciiDigit c || c == '.'

theorem isFractionPart_exponentMark (h : c = 'e' ∨ c = 'E') : isFractionPart c = false := by
  rcases h with rfl | rfl <;> decide

theorem takeExponent_of_stopsAt (h : StopsAt isNumberPart cs) : takeExponent cs = (none, cs) := by
  cases cs with
  | nil => rfl
  | cons c rest =>
      have hc := stopsAt_cons.mp h
      have hmark : ¬ (c = 'e' ∨ c = 'E') := by
        rintro (rfl | rfl) <;> exact absurd hc (by decide)
      rw [takeExponent, if_neg hmark]

theorem takeExponent_of_mark (h : c = 'e' ∨ c = 'E') (cs : List Char) :
    takeExponent (c :: cs) =
      if (takeDigits (takeSign cs).2).1.isEmpty then (none, c :: cs)
      else (some (if (takeSign cs).1 then -(numeralValue (takeDigits (takeSign cs).2).1 : Int)
        else numeralValue (takeDigits (takeSign cs).2).1), (takeDigits (takeSign cs).2).2) := by
  rw [takeExponent, if_pos h]

theorem takeExponent_append {exponent : Option Int} (h : takeExponent cs = (exponent, rest))
    (hstop : StopsAt isNumberPart (rest ++ tail)) :
    takeExponent (cs ++ tail) = (exponent, rest ++ tail) ∧ StopsAt isFractionPart (cs ++ tail) := by
  by_cases hrest : (exponent, rest) = (none, cs)
  · obtain ⟨rfl, rfl⟩ := Prod.mk.inj hrest
    exact ⟨takeExponent_of_stopsAt hstop,
      stopsAt_mono hstop fun c hc ↦ by simp_all [isNumberPart, isFractionPart]⟩
  · cases cs with
    | nil => exact absurd h.symm hrest
    | cons c cs =>
        by_cases hmark : c = 'e' ∨ c = 'E'
        · rw [takeExponent_of_mark hmark] at h
          by_cases hnone : (takeDigits (takeSign cs).2).1.isEmpty = true
          · rw [if_pos hnone] at h
            exact absurd h.symm hrest
          · have hcs : cs ≠ [] := by
              rintro rfl
              exact hnone rfl
            rw [if_neg hnone] at h
            obtain ⟨rfl, rfl⟩ := Prod.mk.inj h
            have hdigits := takeDigits_append
              (stopsAt_mono hstop fun c hc ↦ by simp [isNumberPart, hc])
            refine ⟨?_, stopsAt_cons.mpr (isFractionPart_exponentMark hmark)⟩
            rw [List.cons_append, takeExponent_of_mark hmark, takeSign_append hcs, hdigits,
              if_neg hnone]
        · rw [takeExponent, if_neg hmark] at h
          exact absurd h.symm hrest

theorem takeFraction_of_stopsAt (h : StopsAt isFractionPart cs) : takeFraction cs = ([], cs) := by
  unfold takeFraction
  split
  case h_1 c rest => exact absurd (stopsAt_cons.mp h) (by decide)
  case h_2 => rfl

theorem takeFraction_append {fraction : List Char} (h : takeFraction cs = (fraction, rest))
    (hstop : StopsAt isFractionPart (rest ++ tail)) :
    takeFraction (cs ++ tail) = (fraction, rest ++ tail) ∧ StopsAt isAsciiDigit (cs ++ tail) := by
  by_cases hrest : (fraction, rest) = ([], cs)
  · obtain ⟨rfl, rfl⟩ := Prod.mk.inj hrest
    exact ⟨takeFraction_of_stopsAt hstop,
      stopsAt_mono hstop fun c hc ↦ by simp [isFractionPart, hc]⟩
  · unfold takeFraction at h
    split at h
    case h_1 c cs =>
      split_ifs at h with hdigit
      · have hdigits := @takeDigits_append (c :: cs) tail (by
          rw [h]
          exact stopsAt_mono hstop fun c hc ↦ by simp [isFractionPart, hc])
        rw [h] at hdigits
        refine ⟨?_, stopsAt_cons.mpr (by decide)⟩
        rw [← hdigits]
        exact if_pos hdigit
      · exact absurd h.symm hrest
    case h_2 => exact absurd h.symm hrest

theorem takeWhole_append {whole : List Char} (h : takeWhole cs = some (whole, rest))
    (hstop : StopsAt isAsciiDigit (rest ++ tail)) :
    takeWhole (cs ++ tail) = some (whole, rest ++ tail) := by
  unfold takeWhole at h
  split at h
  case h_1 cs =>
    obtain ⟨rfl, rfl⟩ := Prod.mk.inj (Option.some.inj h)
    rfl
  case h_2 c cs hzero =>
    split_ifs at h with hdigit
    have hdigits := @takeDigits_append (c :: cs) tail
    rw [Option.some.inj h] at hdigits
    rw [← hdigits hstop, List.cons_append]
    unfold takeWhole
    split
    case h_1 hcons => exact (hzero (List.cons.inj hcons).1).elim
    case h_2 d ds _ hcons =>
      obtain ⟨rfl, rfl⟩ := List.cons.inj hcons
      exact if_pos hdigit
    case h_3 hcons => cases hcons
  case h_3 => cases h

/-- The text of a number behind its sign. -/
def unsigned (cs : List Char) : List Char := if cs.head? == some '-' then cs.drop 1 else cs

theorem unsigned_append (h : cs ≠ []) (tail : List Char) :
    unsigned (cs ++ tail) = unsigned cs ++ tail := by
  rw [unsigned, unsigned, List.head?_append_of_ne_nil cs h]
  split_ifs
  · exact List.drop_append_of_le_length (List.length_pos_iff.mpr h)
  · rfl

/-- The value of a number, of which the parts are known. -/
def numberValue (negative : Bool) (whole fraction : List Char) (exponent : Option Int) :
    Except Stop Value :=
  if fraction.isEmpty && exponent.isNone then
    match readNumeral whole with
    | .ok n => .ok (.int (if negative then -(n : Int) else n))
    | .error o => .error (.oversized o)
  else .ok (.float (.ofDecimal negative (whole ++ fraction) (exponent.getD 0 - fraction.length)))

theorem readNumber_of_takeWhole_eq_none (h : takeWhole (unsigned cs) = none) :
    readNumber cs = stopAt .expectedValue cs := by
  unfold unsigned at h
  unfold readNumber
  simp only [h]

theorem readNumber_of_takeWhole_eq_some {whole behind : List Char}
    (h : takeWhole (unsigned cs) = some (whole, behind)) :
    readNumber cs =
      (·, (takeExponent (takeFraction behind).2).2) <$>
        numberValue (cs.head? == some '-') whole (takeFraction behind).1
          (takeExponent (takeFraction behind).2).1 := by
  unfold unsigned at h
  unfold readNumber numberValue
  simp only [h]
  split
  · cases readNumeral whole <;> rfl
  · rfl

/-- A number is taken part by part, and its value is that of its parts. -/
theorem readNumber_eq_ok_iff : readNumber cs = .ok (v, rest) ↔
    ∃ whole fraction exponent behind behind',
      takeWhole (unsigned cs) = some (whole, behind) ∧
      takeFraction behind = (fraction, behind') ∧ takeExponent behind' = (exponent, rest) ∧
      numberValue (cs.head? == some '-') whole fraction exponent = .ok v := by
  cases hwhole : takeWhole (unsigned cs) with
  | none =>
      rw [readNumber_of_takeWhole_eq_none hwhole]
      simp [stopAt]
  | some found =>
      obtain ⟨whole, behind⟩ := found
      rw [readNumber_of_takeWhole_eq_some hwhole, map_eq_ok_iff]
      constructor
      · rintro ⟨_, hvalue, hpair⟩
        obtain ⟨rfl, rfl⟩ := Prod.mk.inj hpair
        exact ⟨whole, _, _, behind, _, rfl, rfl, rfl, hvalue⟩
      · rintro ⟨_, fraction, exponent, _, behind', hparts, hfraction, hexponent, hvalue⟩
        obtain ⟨rfl, rfl⟩ := Prod.mk.inj (Option.some.inj hparts)
        rw [hfraction, hexponent]
        exact ⟨v, hvalue, rfl⟩

theorem ne_nil_of_readNumber (h : readNumber cs = .ok (v, rest)) : cs ≠ [] := by
  rintro rfl
  cases h

theorem readNumber_append (h : readNumber cs = .ok (v, rest))
    (hstop : StopsAt isNumberPart (rest ++ tail)) :
    readNumber (cs ++ tail) = .ok (v, rest ++ tail) := by
  have hcs := ne_nil_of_readNumber h
  obtain ⟨whole, fraction, exponent, _, _, hwhole, hfraction, hexponent, hvalue⟩ :=
    readNumber_eq_ok_iff.mp h
  -- The parts are taken in their order, but what a part stops at is known from the last one.
  obtain ⟨hexponent, hstop⟩ := takeExponent_append hexponent hstop
  obtain ⟨hfraction, hstop⟩ := takeFraction_append hfraction hstop
  have hwhole := takeWhole_append hwhole hstop
  rw [← unsigned_append hcs] at hwhole
  rw [← List.head?_append_of_ne_nil cs hcs] at hvalue
  exact readNumber_eq_ok_iff.mpr ⟨whole, fraction, exponent, _, _, hwhole, hfraction, hexponent,
    hvalue⟩

/-! ## Words -/

theorem words_incomparable :
    words.Pairwise fun a b ↦ ¬ a.1 <+: b.1 ∧ ¬ b.1 <+: a.1 := by
  decide

/-- No word starts another one, so that at most one of them stands in front of a text. -/
theorem takeWord_eq_some_iff :
    takeWord cs = some (v, rest) ↔ ∃ word, (word, v) ∈ words ∧ cs = word ++ rest := by
  constructor
  · intro h
    obtain ⟨⟨word, w⟩, hmem, htake⟩ := List.exists_of_findSome?_eq_some h
    simp only at htake
    split_ifs at htake with hfront
    obtain ⟨rfl, rfl⟩ := Prod.mk.inj (Option.some.inj htake)
    exact ⟨word, hmem, (List.prefix_iff_eq_append.mp (List.isPrefixOf_iff_prefix.mp hfront)).symm⟩
  · rintro ⟨word, hmem, rfl⟩
    obtain ⟨before, behind, hwords⟩ := List.append_of_mem hmem
    have happart := (List.pairwise_append.mp (hwords ▸ words_incomparable)).2.2
    refine List.findSome?_eq_some_iff.mpr ⟨before, (word, v), behind, hwords, ?_, ?_⟩
    · have hfront : word.isPrefixOf (word ++ rest) = true :=
        List.isPrefixOf_iff_prefix.mpr (List.prefix_append word rest)
      simp [hfront]
    · intro other hother
      obtain ⟨hnot, hnot'⟩ := happart other hother _ List.mem_cons_self
      refine if_neg fun hfront ↦ ?_
      rcases List.prefix_or_prefix_of_prefix (List.isPrefixOf_iff_prefix.mp hfront)
        (List.prefix_append word rest) with hle | hle
      · exact hnot hle
      · exact hnot' hle

theorem takeWord_append (h : takeWord cs = some (v, rest)) (tail : List Char) :
    takeWord (cs ++ tail) = some (v, rest ++ tail) := by
  obtain ⟨word, hmem, rfl⟩ := takeWord_eq_some_iff.mp h
  exact takeWord_eq_some_iff.mpr ⟨word, hmem, List.append_assoc word rest tail⟩

/-- A digit stands in front, or behind a hyphen. -/
def startsNumber : List Char → Bool
  | c :: d :: _ => isAsciiDigit c || (c == '-' && isAsciiDigit d)
  | [c] => isAsciiDigit c
  | [] => false

theorem exists_digit_of_takeWhole {whole : List Char} (h : takeWhole cs = some (whole, rest)) :
    ∃ d behind, cs = d :: behind ∧ isAsciiDigit d = true := by
  unfold takeWhole at h
  split at h
  case h_1 behind => exact ⟨'0', behind, rfl, rfl⟩
  case h_2 d behind _ =>
    split_ifs at h with hd
    exact ⟨d, behind, rfl, hd⟩
  case h_3 => cases h

theorem startsNumber_of_readNumber (h : readNumber cs = .ok (v, rest)) :
    startsNumber cs = true := by
  obtain ⟨_, _, _, _, _, hwhole, _⟩ := readNumber_eq_ok_iff.mp h
  obtain ⟨d, behind, hstart, hd⟩ := exists_digit_of_takeWhole hwhole
  obtain ⟨c, cs, rfl⟩ := List.exists_cons_of_ne_nil (ne_nil_of_readNumber h)
  unfold unsigned at hstart
  split_ifs at hstart with hsign
  · rw [List.drop_one, List.tail_cons] at hstart
    subst hstart
    simp_all [startsNumber]
  · obtain ⟨rfl, rfl⟩ := List.cons.inj hstart
    cases cs <;> simp [startsNumber, hd]

theorem startsNumber_append (h : startsNumber cs = true) (tail : List Char) :
    startsNumber (cs ++ tail) = true := by
  match cs, h with
  | c :: d :: cs, h => exact h
  | [c], h => cases tail <;> simp_all [startsNumber]

theorem takeWord_of_startsNumber (h : startsNumber cs = true) : takeWord cs = none := by
  by_contra hsome
  obtain ⟨⟨w, behind⟩, htake⟩ := Option.ne_none_iff_exists'.mp hsome
  obtain ⟨word, hmem, rfl⟩ := takeWord_eq_some_iff.mp htake
  have hwords : words.all (fun entry ↦ 2 ≤ entry.1.length ∧ ¬ startsNumber entry.1) = true := by
    decide
  have hword := of_decide_eq_true (List.all_eq_true.mp hwords _ hmem)
  match word, hword, h with
  | c :: d :: cs, hword, h => exact hword.2 h
  | [c], hword, _ => exact absurd hword.1 (by simp)
  | [], hword, _ => exact absurd hword.1 (by simp)

/-! ## Quoted text -/

theorem fourHex?_append {n : Nat} (h : fourHex? cs = some n) (tail : List Char) :
    fourHex? (cs ++ tail) = some n ∧ (cs ++ tail).drop 4 = cs.drop 4 ++ tail := by
  unfold fourHex? at h
  split at h
  case h_1 a b c d e rest => exact ⟨h, rfl⟩
  case h_2 => cases h

/-- The text from the opening quote on goes only into the faults. -/
theorem readPieces_append {opening : List Char} {done pieces : List Piece}
    (h : readPieces opening done cs = .ok (pieces, rest)) (opening' tail : List Char) :
    readPieces opening' done (cs ++ tail) = .ok (pieces, rest ++ tail) := by
  fun_induction readPieces opening done cs with
  | case1 => cases h
  | case2 done behind =>
      obtain ⟨rfl, rfl⟩ := Prod.mk.inj (Except.ok.inj h)
      rw [List.cons_append, readPieces]
  | case3 done behind n hhex ih =>
      obtain ⟨hhex, hdrop⟩ := fourHex?_append hhex tail
      rw [List.cons_append, List.cons_append, readPieces, hhex, hdrop]
      exact ih h
  | case4 => cases h
  | case5 done c behind hc d hescape ih =>
      rw [List.cons_append, List.cons_append, readPieces, hescape]
      · exact ih h
      · exact hc
  | case6 => cases h
  | case7 => cases h
  | case8 => cases h
  | case9 done c behind hquote _ hescape hlast hcontrol ih =>
      have hbackslash : c ≠ '\\' := by
        intro hc
        cases behind with
        | nil => exact hlast hc rfl
        | cons d behind => exact hescape d behind hc rfl
      rw [List.cons_append, readPieces, if_neg hcontrol]
      · exact ih h
      · exact hquote
      · exact fun _ hc _ ↦ hbackslash hc
      · exact fun _ _ hc _ ↦ hbackslash hc
      · exact fun hc _ ↦ hbackslash hc

theorem readText_append {text : String} (h : readText cs = .ok (text, rest)) (tail : List Char) :
    readText (cs ++ tail) = .ok (text, rest ++ tail) := by
  obtain ⟨⟨pieces, behind⟩, hpieces, hpair⟩ := bind_eq_ok_iff.mp h
  obtain ⟨rfl, rfl⟩ := Prod.mk.inj (Except.ok.inj hpair)
  rw [readText, readPieces_append hpieces _ tail]
  rfl

/-! ## Values -/

variable {fuel : Nat} {done : Fields} {items : List Value}

/-- The characters that open a quoted text, an object or a list. -/
def isOpening (c : Char) : Bool := c == '\x22' || c == '\x7b' || c == '['

/-- One call of the reader, by what the text starts with. -/
inductive TakesValue (fuel : Nat) : List Char → Value → List Char → Prop
  | text {cs rest : List Char} {s : String} (h : readText cs = .ok (s, rest)) :
      TakesValue fuel ('\x22' :: cs) (.text s) rest
  | emptyObject {cs rest : List Char} (h : skipBlanks cs = '\x7d' :: rest) :
      TakesValue fuel ('\x7b' :: cs) (.object []) rest
  | object {cs rest : List Char} {v : Value} (hopen : ∀ behind, skipBlanks cs ≠ '\x7d' :: behind)
      (h : readMembers fuel [] (skipBlanks cs) = .ok (v, rest)) :
      TakesValue fuel ('\x7b' :: cs) v rest
  | emptyList {cs rest : List Char} (h : skipBlanks cs = ']' :: rest) :
      TakesValue fuel ('[' :: cs) (.list []) rest
  | list {cs rest : List Char} {v : Value} (hopen : ∀ behind, skipBlanks cs ≠ ']' :: behind)
      (h : readItems fuel [] (skipBlanks cs) = .ok (v, rest)) :
      TakesValue fuel ('[' :: cs) v rest
  | word {c : Char} {cs rest : List Char} {v : Value} (hc : isOpening c = false)
      (h : takeWord (c :: cs) = some (v, rest)) : TakesValue fuel (c :: cs) v rest
  | number {c : Char} {cs rest : List Char} {v : Value} (hc : isOpening c = false)
      (hword : takeWord (c :: cs) = none) (h : readNumber (c :: cs) = .ok (v, rest)) :
      TakesValue fuel (c :: cs) v rest

theorem readValue_plain (hc : isOpening c = false) (fuel : Nat) (cs : List Char) :
    readValue (fuel + 1) (c :: cs) =
      match takeWord (c :: cs) with
      | some found => .ok found
      | none => readNumber (c :: cs) := by
  unfold readValue
  split
  case h_1 hcons =>
    obtain ⟨rfl, rfl⟩ := List.cons.inj hcons
    cases hc
  case h_2 hcons =>
    obtain ⟨rfl, rfl⟩ := List.cons.inj hcons
    cases hc
  case h_3 hcons =>
    obtain ⟨rfl, rfl⟩ := List.cons.inj hcons
    cases hc
  case h_4 => rfl

theorem TakesValue.readValue_eq_ok (h : TakesValue fuel cs v rest) :
    readValue (fuel + 1) cs = .ok (v, rest) := by
  cases h with
  | text h =>
      rw [readValue, h]
      rfl
  | emptyObject h => simp only [readValue, h]
  | object hopen h =>
      rw [readValue]
      split
      · exact absurd ‹_› (hopen _)
      · exact h
  | emptyList h => simp only [readValue, h]
  | list hopen h =>
      rw [readValue]
      split
      · exact absurd ‹_› (hopen _)
      · exact h
  | word hc h => rw [readValue_plain hc, h]
  | number hc hword h => rw [readValue_plain hc, hword, h]

theorem takesValue_of_readValue (h : readValue (fuel + 1) cs = .ok (v, rest)) :
    TakesValue fuel cs v rest := by
  unfold readValue at h
  split at h
  case h_1 cs =>
    obtain ⟨⟨text, behind⟩, htext, hpair⟩ := bind_eq_ok_iff.mp h
    obtain ⟨rfl, rfl⟩ := Prod.mk.inj (Except.ok.inj hpair)
    exact .text htext
  case h_2 cs =>
    split at h
    case h_1 hclose =>
      obtain ⟨rfl, rfl⟩ := Prod.mk.inj (Except.ok.inj h)
      exact .emptyObject hclose
    case h_2 hopen => exact .object hopen h
  case h_3 cs =>
    split at h
    case h_1 hclose =>
      obtain ⟨rfl, rfl⟩ := Prod.mk.inj (Except.ok.inj h)
      exact .emptyList hclose
    case h_2 hopen => exact .list hopen h
  case h_4 hquote hbrace hbracket =>
    cases cs with
    | nil => cases h
    | cons c cs =>
        have hc : isOpening c = false := by
          simp only [isOpening, Bool.or_eq_false_iff, beq_eq_false_iff_ne]
          refine ⟨⟨?_, ?_⟩, ?_⟩
          · rintro rfl
            exact hquote cs rfl
          · rintro rfl
            exact hbrace cs rfl
          · rintro rfl
            exact hbracket cs rfl
        split at h
        case h_1 hword => exact .word hc (hword.trans (congrArg some (Except.ok.inj h)))
        case h_2 hword => exact .number hc hword h

theorem readValue_eq_ok_iff :
    readValue (fuel + 1) cs = .ok (v, rest) ↔ TakesValue fuel cs v rest :=
  ⟨takesValue_of_readValue, TakesValue.readValue_eq_ok⟩

theorem readItems_eq_ok_iff : readItems (fuel + 1) items cs = .ok (v, rest) ↔
    ∃ item behind, readValue fuel cs = .ok (item, behind) ∧
      ((skipBlanks behind = ']' :: rest ∧ .list (item :: items).reverse = v) ∨
        ∃ more, skipBlanks behind = ',' :: more ∧
          readItems fuel (item :: items) (skipBlanks more) = .ok (v, rest)) := by
  rw [readItems, bind_eq_ok_iff, Prod.exists]
  refine exists_congr fun item ↦ exists_congr fun behind ↦ and_congr_right fun _ ↦ ?_
  simp only
  split <;> simp_all [stopAt, and_comm]

theorem readMembers_eq_ok_iff : readMembers (fuel + 1) done cs = .ok (v, rest) ↔
    ∃ keyText, cs = '\x22' :: keyText ∧ ∃ key colon, readText keyText = .ok (key, colon) ∧
      ∃ valueText, skipBlanks colon = ':' :: valueText ∧
      ∃ value behind, readValue fuel (skipBlanks valueText) = .ok (value, behind) ∧
        ((skipBlanks behind = '\x7d' :: rest ∧ .object (done.put key value) = v) ∨
          ∃ more, skipBlanks behind = ',' :: more ∧
            readMembers fuel (done.put key value) (skipBlanks more) = .ok (v, rest)) := by
  rw [readMembers.eq_def]
  simp only
  split
  case h_1 keyText =>
    rw [bind_eq_ok_iff, Prod.exists]
    simp only [List.cons.injEq, true_and, exists_eq_left']
    refine exists_congr fun key ↦ exists_congr fun colon ↦ and_congr_right fun _ ↦ ?_
    split
    case h_1 valueText hcolon =>
      rw [bind_eq_ok_iff, Prod.exists]
      simp only [hcolon, List.cons.injEq, true_and, exists_eq_left']
      refine exists_congr fun value ↦ exists_congr fun behind ↦ and_congr_right fun _ ↦ ?_
      split <;> simp_all [stopAt, and_comm]
    case h_2 hcolon => simp_all [stopAt]
  case h_2 hquote => simp_all [stopAt]

theorem ne_nil_of_readValue (h : readValue fuel cs = .ok (v, rest)) : cs ≠ [] := by
  rintro rfl
  cases fuel with
  | zero => cases h
  | succ fuel => cases h

theorem ne_nil_of_readItems (h : readItems fuel items cs = .ok (v, rest)) : cs ≠ [] := by
  cases fuel with
  | zero => cases h
  | succ fuel =>
      obtain ⟨_, _, hitem, _⟩ := readItems_eq_ok_iff.mp h
      exact ne_nil_of_readValue hitem

theorem exists_quote_of_readMembers (h : readMembers fuel done cs = .ok (v, rest)) :
    ∃ keyText, cs = '\x22' :: keyText := by
  cases fuel with
  | zero => cases h
  | succ fuel =>
      obtain ⟨keyText, hquote, _⟩ := readMembers_eq_ok_iff.mp h
      exact ⟨keyText, hquote⟩

theorem ne_nil_of_readMembers (h : readMembers fuel done cs = .ok (v, rest)) : cs ≠ [] := by
  obtain ⟨keyText, rfl⟩ := exists_quote_of_readMembers h
  exact List.cons_ne_nil _ keyText

/-! ## A longer text and more fuel -/

/-- A value read with this fuel is read from any longer text, with no less fuel. -/
def ValuesGoOn (fuel : Nat) : Prop :=
  ∀ cs v rest, readValue fuel cs = .ok (v, rest) → ∀ more tail,
    StopsAt isNumberPart (rest ++ tail) →
      readValue (fuel + more) (cs ++ tail) = .ok (v, rest ++ tail)

/-- Items end with their bracket, and members with their brace, so that nothing is asked of what
stands behind them. -/
def ItemsGoOn (fuel : Nat) : Prop :=
  ∀ items cs v rest, readItems fuel items cs = .ok (v, rest) → ∀ more tail,
    readItems (fuel + more) items (cs ++ tail) = .ok (v, rest ++ tail)

def MembersGoOn (fuel : Nat) : Prop :=
  ∀ done cs v rest, readMembers fuel done cs = .ok (v, rest) → ∀ more tail,
    readMembers (fuel + more) done (cs ++ tail) = .ok (v, rest ++ tail)

theorem isNumberPart_of_isJsonBlank (h : isJsonBlank c = true) : isNumberPart c = false := by
  simp only [isJsonBlank, Bool.or_eq_true, beq_iff_eq] at h
  rcases h with ((rfl | rfl) | rfl) | rfl <;> decide

/-- A number stops at blanks, and behind the blanks it need not stop any more. -/
theorem stopsAt_of_skipBlanks (h : StopsAt isNumberPart (skipBlanks cs)) :
    StopsAt isNumberPart cs := by
  cases cs with
  | nil => exact h
  | cons c cs =>
      rw [stopsAt_cons]
      cases hc : isJsonBlank c with
      | true => exact isNumberPart_of_isJsonBlank hc
      | false =>
          rw [skipBlanks, List.dropWhile_cons_of_neg (by simp [hc]), stopsAt_cons] at h
          exact h

theorem stopsAt_of_skipBlanks_cons (h : skipBlanks cs = c :: rest)
    (hc : isNumberPart c = false) : StopsAt isNumberPart cs :=
  stopsAt_of_skipBlanks (by rwa [h, stopsAt_cons])

theorem itemsGoOn_succ (hvalues : ValuesGoOn fuel) (hitems : ItemsGoOn fuel) :
    ItemsGoOn (fuel + 1) := by
  intro items cs v rest h more tail
  obtain ⟨item, behind, hitem, hnext⟩ := readItems_eq_ok_iff.mp h
  rw [Nat.add_right_comm, readItems_eq_ok_iff]
  -- Behind the item there is its bracket or a comma, so that a number in it stops there as well.
  rcases hnext with ⟨hclose, rfl⟩ | ⟨next, hcomma, hrest⟩
  · have hclose := skipBlanks_append_of_cons hclose tail
    have hitem := hvalues _ _ _ hitem more tail (stopsAt_of_skipBlanks_cons hclose (by decide))
    exact ⟨item, _, hitem, .inl ⟨hclose, rfl⟩⟩
  · have hcomma := skipBlanks_append_of_cons hcomma tail
    have hitem := hvalues _ _ _ hitem more tail (stopsAt_of_skipBlanks_cons hcomma (by decide))
    refine ⟨item, _, hitem, .inr ⟨_, hcomma, ?_⟩⟩
    rw [skipBlanks_append (ne_nil_of_readItems hrest)]
    exact hitems _ _ _ _ hrest more tail

theorem membersGoOn_succ (hvalues : ValuesGoOn fuel) (hmembers : MembersGoOn fuel) :
    MembersGoOn (fuel + 1) := by
  intro done cs v rest h more tail
  obtain ⟨keyText, rfl, key, colon, hkey, valueText, hcolon, value, behind, hvalue, hnext⟩ :=
    readMembers_eq_ok_iff.mp h
  rw [Nat.add_right_comm, readMembers_eq_ok_iff]
  refine ⟨_, rfl, key, _, readText_append hkey tail, _, skipBlanks_append_of_cons hcolon tail, ?_⟩
  rw [skipBlanks_append (ne_nil_of_readValue hvalue)]
  rcases hnext with ⟨hclose, rfl⟩ | ⟨next, hcomma, hrest⟩
  · have hclose := skipBlanks_append_of_cons hclose tail
    have hvalue := hvalues _ _ _ hvalue more tail (stopsAt_of_skipBlanks_cons hclose (by decide))
    exact ⟨value, _, hvalue, .inl ⟨hclose, rfl⟩⟩
  · have hcomma := skipBlanks_append_of_cons hcomma tail
    have hvalue := hvalues _ _ _ hvalue more tail (stopsAt_of_skipBlanks_cons hcomma (by decide))
    refine ⟨value, _, hvalue, .inr ⟨_, hcomma, ?_⟩⟩
    rw [skipBlanks_append (ne_nil_of_readMembers hrest)]
    exact hmembers _ _ _ _ hrest more tail

theorem valuesGoOn_succ (hitems : ItemsGoOn fuel) (hmembers : MembersGoOn fuel) :
    ValuesGoOn (fuel + 1) := by
  intro cs v rest h more tail hstop
  rw [Nat.add_right_comm, readValue_eq_ok_iff]
  cases takesValue_of_readValue h with
  | text h => exact .text (readText_append h tail)
  | emptyObject h => exact .emptyObject (skipBlanks_append_of_cons h tail)
  | object hopen h =>
      have hsome := ne_nil_of_readMembers h
      have h := hmembers _ _ _ _ h more tail
      rw [← skipBlanks_append hsome] at h
      exact .object (skipBlanks_append_ne_cons hsome hopen tail) h
  | emptyList h => exact .emptyList (skipBlanks_append_of_cons h tail)
  | list hopen h =>
      have hsome := ne_nil_of_readItems h
      have h := hitems _ _ _ _ h more tail
      rw [← skipBlanks_append hsome] at h
      exact .list (skipBlanks_append_ne_cons hsome hopen tail) h
  | word hc h => exact .word hc (takeWord_append h tail)
  | number hc _ h =>
      have hstart := startsNumber_append (startsNumber_of_readNumber h) tail
      exact .number hc (takeWord_of_startsNumber hstart) (readNumber_append h hstop)

theorem all_goOn (fuel : Nat) : ValuesGoOn fuel ∧ ItemsGoOn fuel ∧ MembersGoOn fuel := by
  induction fuel with
  | zero =>
      refine ⟨?_, ?_, ?_⟩
      · intro cs _ _ h
        rw [readValue_zero] at h
        cases h
      · intro items cs _ _ h
        rw [readItems_zero] at h
        cases h
      · intro done cs _ _ h
        rw [readMembers_zero] at h
        cases h
  | succ fuel ih =>
      obtain ⟨hvalues, hitems, hmembers⟩ := ih
      exact ⟨valuesGoOn_succ hitems hmembers, itemsGoOn_succ hvalues hitems,
        membersGoOn_succ hvalues hmembers⟩

/-- What is read in front of a text is the same whatever stands behind it. -/
theorem readValue_append (h : readValue fuel cs = .ok (v, rest)) {fuel' : Nat}
    (hfuel : fuel ≤ fuel') (hstop : StopsAt isNumberPart (rest ++ tail)) :
    readValue fuel' (cs ++ tail) = .ok (v, rest ++ tail) := by
  obtain ⟨more, rfl⟩ := Nat.exists_eq_add_of_le hfuel
  exact (all_goOn fuel).1 cs v rest h more tail hstop

/-! ## Whole texts -/

theorem readDocument_eq_ok_iff : readDocument cs = .ok v ↔ cs.head? ≠ some '\ufeff' ∧
    ∃ rest, readValue (2 * cs.length + 2) (skipBlanks cs) = .ok (v, rest) ∧
      skipBlanks rest = [] := by
  unfold readDocument
  split
  case isTrue hmark => simp [hmark, stopAt]
  case isFalse hmark =>
    rw [bind_eq_ok_iff, Prod.exists]
    constructor
    · rintro ⟨w, rest, hvalue, hrest⟩
      simp only at hrest
      split at hrest
      · obtain rfl := Except.ok.inj hrest
        exact ⟨hmark, rest, hvalue, ‹_›⟩
      · cases hrest
    · rintro ⟨_, rest, hvalue, hrest⟩
      refine ⟨v, rest, hvalue, ?_⟩
      simp only [hrest]

/-- The value of a whole text, read from a longer text that goes on behind it with a character
that is no part of a value. -/
theorem readValue_of_readDocument (h : readDocument cs = .ok v) (hc : isNumberPart c = false)
    (hblank : isJsonBlank c = false) (hfuel : 2 * cs.length + 2 ≤ fuel) (tail : List Char) :
    ∃ behind, readValue fuel (skipBlanks (cs ++ c :: tail)) = .ok (v, behind) ∧
      skipBlanks behind = c :: tail := by
  obtain ⟨_, rest, hvalue, hrest⟩ := readDocument_eq_ok_iff.mp h
  have hbehind : skipBlanks (rest ++ c :: tail) = c :: tail := by
    rw [skipBlanks_append_of_nil hrest]
    exact List.dropWhile_cons_of_neg (by simp [hblank])
  refine ⟨rest ++ c :: tail, ?_, hbehind⟩
  rw [skipBlanks_append (ne_nil_of_readValue hvalue)]
  exact readValue_append hvalue hfuel (stopsAt_of_skipBlanks_cons hbehind hc)

/-- Only what may stand around a value. -/
def AreBlank (cs : List Char) : Prop := ∀ c ∈ cs, isJsonBlank c = true

theorem skipBlanks_areBlank (h : AreBlank cs) (tail : List Char) :
    skipBlanks (cs ++ tail) = skipBlanks tail := List.dropWhile_append_of_pos h

theorem head?_ne_mark_of_areBlank (h : AreBlank cs) (htail : tail.head? ≠ some '\ufeff') :
    (cs ++ tail).head? ≠ some '\ufeff' := by
  cases cs with
  | nil => exact htail
  | cons c cs =>
      have hc := h c List.mem_cons_self
      rintro hmark
      obtain rfl : c = '\ufeff' := Option.some.inj hmark
      exact absurd hc (by decide)

theorem readDocument_spaced {before after : List Char} (hbefore : AreBlank before)
    (hafter : AreBlank after) (h : readDocument cs = .ok v) :
    readDocument (before ++ (cs ++ after)) = .ok v := by
  obtain ⟨hmark, rest, hvalue, hrest⟩ := readDocument_eq_ok_iff.mp h
  have hsome := ne_nil_of_readValue hvalue
  have hcs : cs ≠ [] := by
    rintro rfl
    exact hsome rfl
  have hmark : (cs ++ after).head? ≠ some '\ufeff' := by
    rwa [List.head?_append_of_ne_nil cs hcs]
  have hbehind : skipBlanks (rest ++ after) = [] := by
    rw [skipBlanks_append_of_nil hrest]
    exact List.dropWhile_eq_nil_iff.mpr hafter
  have hstop : StopsAt isNumberPart (skipBlanks (rest ++ after)) := by
    rw [hbehind]
    intro c rest hnil
    cases hnil
  have hfuel : 2 * cs.length + 2 ≤ 2 * (before ++ (cs ++ after)).length + 2 := by
    rw [List.length_append, List.length_append]
    omega
  refine readDocument_eq_ok_iff.mpr ⟨head?_ne_mark_of_areBlank hbefore hmark, _, ?_, hbehind⟩
  rw [skipBlanks_areBlank hbefore, skipBlanks_append hsome]
  exact readValue_append hvalue hfuel (stopsAt_of_skipBlanks hstop)

end AbiTypings.Json
