import Worksheet.Formula.Source
import Worksheet.Proofs.Expr.Fragment
import Worksheet.Proofs.Formula.Canonical
import Worksheet.Proofs.Number.Numeral

/-!
# The tokens of a formula

A text is scanned from the left, and each token is taken as long as possible.

* `Token`: the tokens there are, and the symbols that they stand for.
* `longest_iff_token?`: what is taken next is the longest token at the head of the text.
* `scan_eq_ok_iff`: the symbols of a text are those of its longest tokens.
* `scan_eq_error_iff`: a text without symbols is reported with the first character at which no token
  begins.
-/

namespace Worksheet.Formula

open Worksheet.Expr (Op Symbol char_mem_punctuation punctuation)
open Worksheet.Number (Numeral)
open Worksheet.Text (Stops digit? isBlank isDecimal stops_cons stops_nil takeWhile_run dropWhile_run
  zeros)

/-! ### Tokens

The specification of the scanner. A token is said by its form, and a text is scanned into the
longest tokens from left to right; where no token begins, the scanner is stuck.
-/

/-- The tokens: white space, which stands for no symbol, and the texts of symbols. -/
inductive Token : List Char → Option (Symbol Term) → Prop
  | blank {w : List Char} : w ≠ [] → (∀ c ∈ w, isBlank c = true) → Token w none
  | opening : Token ['('] (some .opening)
  | closing : Token [')'] (some .closing)
  | op (o : Op) : Token [o.char] (some (.op o))
  | variable {c : Char} {cs : List Char} : isIdentifierStart c = true →
    (∀ d ∈ cs, isIdentifierPart d = true) →
    Token (c :: cs) (some (.operand (.variable (c :: cs))))
  | numeral {n : Numeral} : n.Formed → Token n.text (some (.operand (.numeral n)))

/-- A token at the head of a text, with what follows it, where no token at the head of the text is
longer. -/
structure Longest (w : List Char) (symbol : Option (Symbol Term)) (rest : List Char) : Prop where
  token : Token w symbol
  longest : ∀ w' symbol', Token w' symbol' → w' <+: w ++ rest → w'.length ≤ w.length

/-- The symbols of a text that falls into tokens, each as long as possible. -/
inductive Scanned : List Char → List (Symbol Term) → Prop
  | nil : Scanned [] []
  | cons {w rest : List Char} {symbol : Option (Symbol Term)} {symbols : List (Symbol Term)} :
    Longest w symbol rest → Scanned rest symbols → Scanned (w ++ rest) (symbol.toList ++ symbols)

/-- A text that does not fall into tokens: behind some, each as long as possible, none begins at the
character `c`, which stands at `position`. -/
inductive Stuck : List Char → Char → Nat → Prop
  | here {c : Char} {cs : List Char} : (∀ w symbol, Token w symbol → ¬ w <+: c :: cs) →
    Stuck (c :: cs) c 0
  | later {w rest : List Char} {symbol : Option (Symbol Term)} {c : Char} {position : Nat} :
    Longest w symbol rest → Stuck rest c position → Stuck (w ++ rest) c (w.length + position)

theorem Token.ne_nil {w : List Char} {symbol : Option (Symbol Term)} (h : Token w symbol) :
    w ≠ [] := by
  cases h with
  | blank hne _ => exact hne
  | opening => exact List.cons_ne_nil _ _
  | closing => exact List.cons_ne_nil _ _
  | op o => exact List.cons_ne_nil _ _
  | «variable» _ _ => exact List.cons_ne_nil _ _
  | @numeral n hn =>
    intro htext
    have hparts := List.append_eq_nil_iff.mp htext
    have hparts := List.append_eq_nil_iff.mp hparts.1
    have hparts' := List.append_eq_nil_iff.mp hparts.1
    rcases hn.digits_ne with hne | hne
    · exact hne hparts'.1
    · exact hne hparts.2

/-- A symbol is written as its token. -/
theorem Token.eq_source {w : List Char} {s : Symbol Term} (h : Token w (some s)) :
    w = source s := by
  cases h <;> rfl

/-- The symbols of a text stand among its tokens. -/
theorem Scanned.token {text : List Char} {symbols : List (Symbol Term)} {s : Symbol Term}
    (h : Scanned text symbols) (hs : s ∈ symbols) : Token (source s) (some s) := by
  induction h with
  | nil => cases hs
  | cons hlongest _ ih =>
    rcases List.mem_append.mp hs with hfirst | hrest
    · have htoken := hlongest.token
      rw [Option.mem_toList.mp hfirst] at htoken
      rwa [htoken.eq_source] at htoken
    · exact ih hrest

/-- Where no operand begins there is nothing, white space, a parenthesis or an operator. -/
theorem Scanned.stops_of {p : Char → Bool} (hblank : ∀ c, isBlank c = true → p c = false)
    (hmark : ∀ c ∈ punctuation, p c = false) {text : List Char} {symbols : List (Symbol Term)}
    (h : Scanned text symbols) (hhead : ∀ s ∈ symbols.head?, startsOperand s = false) :
    Stops p text := by
  cases h with
  | nil => exact stops_nil
  | cons hlongest _ =>
    cases hlongest.token with
    | blank hne hw =>
      obtain ⟨c, cs, rfl⟩ := List.exists_cons_of_ne_nil hne
      exact stops_cons (hblank c (hw c List.mem_cons_self))
    | opening => cases hhead _ rfl
    | closing => exact stops_cons (hmark _ (by simp [punctuation]))
    | op o => exact stops_cons (hmark _ (char_mem_punctuation o))
    | «variable» _ _ => cases hhead _ rfl
    | numeral _ => cases hhead _ rfl

/-! ### Characters of numerals -/

/-- A decimal digit stands among the ten behind a zero. -/
theorem exists_zero_of_isDecimal {c : Char} (h : isDecimal c = true) :
    ∃ z ∈ zeros, ∃ k < 10, c.toNat = z + k := by
  unfold isDecimal digit? at h
  split at h
  · next hdigit =>
    simp only [Char.isDigit, Bool.and_eq_true, decide_eq_true_eq, UInt32.le_iff_toNat_le,
      ge_iff_le] at hdigit
    have hcode : 48 ≤ c.toNat ∧ c.toNat ≤ 57 := hdigit
    exact ⟨0x30, List.mem_cons_self, c.toNat - 0x30, by omega, by omega⟩
  · split at h
    · cases h
    · rw [Option.isSome_map, List.find?_isSome] at h
      obtain ⟨z, hz, hcode⟩ := h
      rw [Bool.and_eq_true, decide_eq_true_eq, decide_eq_true_eq] at hcode
      exact ⟨z, hz, c.toNat - z, by omega, by omega⟩

/-- No decimal digit is white space, a parenthesis, an operator, or the beginning of a name. -/
theorem other_of_isDecimal {c : Char} (h : isDecimal c = true) :
    isBlank c = false ∧ Symbol.ofChar? (α := Term) c = none ∧ isIdentifierStart c = false := by
  obtain ⟨z, hz, k, hk, hcode⟩ := exists_zero_of_isDecimal h
  have hdigits : ∀ z ∈ zeros, ∀ k < 10, isBlank (Char.ofNat (z + k)) = false
      ∧ Symbol.ofChar? (α := Term) (Char.ofNat (z + k)) = none
      ∧ isIdentifierStart (Char.ofNat (z + k)) = false := by decide +kernel
  rw [← Char.ofNat_toNat c, hcode]
  exact hdigits z hz k hk

/-- A numeral begins with none of these either. -/
theorem exists_cons_of_formed {n : Numeral} (h : n.Formed) :
    ∃ c cs, n.text = c :: cs ∧ isBlank c = false ∧ Symbol.ofChar? (α := Term) c = none
      ∧ isIdentifierStart c = false := by
  obtain ⟨whole, point, fraction, exponent⟩ := n
  cases whole with
  | cons c whole => exact ⟨c, _, rfl, other_of_isDecimal (h.whole c List.mem_cons_self)⟩
  | nil =>
    -- Without digits before it there is a point.
    rcases h.point with hpoint | ⟨-, hfraction⟩
    · cases hpoint
      exact ⟨'.', _, rfl, by decide⟩
    · rcases h.digits_ne with hne | hne
      · exact absurd rfl hne
      · exact absurd hfraction hne

/-! ### The next token

The scanner decides by the first character. Which token it then takes is the longest one there,
since every kind of token is a run of characters.
-/

/-- The token at the head of a text and what follows it. White space is taken in one piece. -/
def token? : List Char → Option (Option (Symbol Term) × List Char)
  | [] => none
  | c :: cs => if isBlank c then some (none, cs.dropWhile isBlank) else next c cs

theorem token?_numeral {n : Numeral} (h : n.Formed) (rest : List Char) :
    token? (n.text ++ rest) = (Numeral.scan (n.text ++ rest)).map fun (found, left) =>
      (some (.operand (.numeral found)), left) := by
  obtain ⟨c, cs, htext, hblank, hsymbol, hname⟩ := exists_cons_of_formed h
  rw [htext, List.cons_append, token?, if_neg (by simp [hblank]), next,
    if_neg (by simp [hblank]), hsymbol]
  exact if_neg (by simp [hname])

/-- A name is taken to its end. -/
theorem token?_variable {c : Char} {cs : List Char} (hc : isIdentifierStart c = true)
    (hcs : ∀ d ∈ cs, isIdentifierPart d = true) (rest : List Char) :
    token? (c :: cs ++ rest)
      = some (some (.operand (.variable (c :: (cs ++ rest.takeWhile isIdentifierPart)))),
          rest.dropWhile isIdentifierPart) := by
  have hpart := isIdentifierPart_of_start hc
  have hblank := isBlank_of_isIdentifierPart hpart
  rw [List.cons_append, token?, if_neg (by simp [hblank]), next, if_neg (by simp [hblank]),
    ofChar?_of_isIdentifierPart hpart]
  simp only [if_pos hc, List.takeWhile_append_of_pos hcs, List.dropWhile_append_of_pos hcs]

theorem token?_op (o : Op) (rest : List Char) :
    token? ([o.char] ++ rest) = some (some (.op o), rest) := by
  rw [List.singleton_append, token?, if_neg (by simp [isBlank_char]), next,
    if_neg (by simp [isBlank_char]), ofChar?_char]

theorem token?_blank {w : List Char} (hne : w ≠ []) (hw : ∀ c ∈ w, isBlank c = true)
    (rest : List Char) : token? (w ++ rest) = some (none, rest.dropWhile isBlank) := by
  obtain ⟨c, cs, rfl⟩ := List.exists_cons_of_ne_nil hne
  rw [List.cons_append, token?, if_pos (hw c List.mem_cons_self),
    List.dropWhile_append_of_pos fun d hd => hw d (List.mem_cons_of_mem _ hd)]

/-- Where a text begins with a token, a token is found that is not shorter. -/
theorem Token.exists_token? {w : List Char} {symbol : Option (Symbol Term)} (h : Token w symbol)
    (rest : List Char) :
    ∃ found left, token? (w ++ rest) = some (found, left) ∧ left.length ≤ rest.length := by
  cases h with
  | blank hne hw => exact ⟨_, _, token?_blank hne hw rest, length_dropWhile_le _ _⟩
  | opening => exact ⟨_, _, rfl, le_rfl⟩
  | closing => exact ⟨_, _, rfl, le_rfl⟩
  | op o => exact ⟨_, _, token?_op o rest, le_rfl⟩
  | «variable» hc hcs => exact ⟨_, _, token?_variable hc hcs rest, length_dropWhile_le _ _⟩
  | numeral hn =>
    obtain ⟨found, left, hscan, hleft⟩ := Numeral.exists_scan_append hn rest
    exact ⟨_, _, by rw [token?_numeral hn, hscan]; rfl, hleft⟩

/-- A token by itself is found as what it is. -/
theorem Token.token?_eq {w : List Char} {symbol : Option (Symbol Term)} (h : Token w symbol) :
    token? w = some (symbol, []) := by
  rw [← List.append_nil w]
  cases h with
  | blank hne hw => exact token?_blank hne hw []
  | opening => rfl
  | closing => rfl
  | op o => exact token?_op o []
  | «variable» hc hcs =>
    rw [token?_variable hc hcs, List.takeWhile_nil, List.append_nil]
    rfl
  | numeral hn =>
    rw [token?_numeral hn, Numeral.scan_text_append hn stops_nil]
    rfl

theorem token_of_ofChar? {c : Char} {symbol : Symbol Term} (h : Symbol.ofChar? c = some symbol) :
    Token [c] (some symbol) := by
  unfold Symbol.ofChar? at h
  split at h
  · cases h
    exact .opening
  · cases h
    exact .closing
  · obtain ⟨o, ho, rfl⟩ := Option.map_eq_some_iff.mp h
    rw [← Op.char_of_ofChar? ho]
    exact .op o

/-- What is found is a token at the head of the text. -/
theorem exists_token_of_token? {text rest : List Char} {symbol : Option (Symbol Term)}
    (h : token? text = some (symbol, rest)) : ∃ w, Token w symbol ∧ text = w ++ rest := by
  cases text with
  | nil => cases h
  | cons c cs =>
    rw [token?] at h
    split at h
    · next hblank =>
      cases h
      refine ⟨c :: cs.takeWhile isBlank, .blank (List.cons_ne_nil _ _) ?_, ?_⟩
      · intro d hd
        rcases List.mem_cons.mp hd with rfl | hd
        · exact hblank
        · exact List.mem_takeWhile_imp hd
      · rw [List.cons_append, List.takeWhile_append_dropWhile]
    · next hblank =>
      rw [next, if_neg hblank] at h
      split at h
      · next s hs =>
        cases h
        exact ⟨[c], token_of_ofChar? hs, rfl⟩
      · split at h
        · next hc =>
          cases h
          refine ⟨_, .variable hc fun d hd => List.mem_takeWhile_imp hd, ?_⟩
          rw [List.cons_append, List.takeWhile_append_dropWhile]
        · obtain ⟨⟨n, left⟩, hscan, hfound⟩ := Option.map_eq_some_iff.mp h
          cases hfound
          exact ⟨n.text, .numeral (Numeral.formed_of_scan hscan),
            (Numeral.text_append_of_scan hscan).symm⟩

/-- What is found next is the longest token at the head of the text. -/
theorem longest_iff_token? {w rest : List Char} {symbol : Option (Symbol Term)} :
    Longest w symbol rest ↔ token? (w ++ rest) = some (symbol, rest) := by
  constructor
  · rintro ⟨htoken, hlongest⟩
    obtain ⟨found, left, hfound, hleft⟩ := htoken.exists_token? rest
    obtain ⟨w', htoken', htext⟩ := exists_token_of_token? hfound
    -- The token that is found is as long as the longest one, and so it is that one.
    have hlength := hlongest w' found htoken' ⟨left, htext.symm⟩
    have htotal := congrArg List.length htext
    rw [List.length_append, List.length_append] at htotal
    obtain ⟨rfl, rfl⟩ := List.append_inj htext (by omega)
    have hsame := htoken.token?_eq.symm.trans htoken'.token?_eq
    cases hsame
    exact hfound
  · intro hfound
    obtain ⟨w', htoken, htext⟩ := exists_token_of_token? hfound
    obtain rfl := List.append_cancel_right htext
    refine ⟨htoken, ?_⟩
    rintro w' symbol' htoken' ⟨rest', htext'⟩
    obtain ⟨found, left, hfound', hleft⟩ := htoken'.exists_token? rest'
    rw [htext', hfound] at hfound'
    cases hfound'
    have htotal := congrArg List.length htext'
    rw [List.length_append, List.length_append] at htotal
    omega

/-- Nothing is found only where no token begins. -/
theorem token?_eq_none_iff {text : List Char} :
    token? text = none ↔ ∀ w symbol, Token w symbol → ¬ w <+: text := by
  constructor
  · rintro hnone w symbol htoken ⟨rest, rfl⟩
    obtain ⟨found, left, hfound, -⟩ := htoken.exists_token? rest
    rw [hnone] at hfound
    cases hfound
  · intro h
    cases hfound : token? text with
    | none => rfl
    | some found =>
      obtain ⟨w, htoken, htext⟩ := exists_token_of_token? hfound
      exact absurd ⟨found.2, htext.symm⟩ (h w found.1 htoken)

/-! ### Scanning

The scanner takes one token after the other. It ends with all symbols, or at the first character
that begins no token.
-/

/-- Where nothing begins, the character is reported. -/
theorem scanFrom_cons_of_none {total : Nat} {c : Char} {cs : List Char} (h : next c cs = none) :
    scanFrom total (c :: cs) = .error (.invalidCharacter c (total - (cs.length + 1))) := by
  rw [scanFrom]
  split
  · rfl
  · next hsome =>
    rw [h] at hsome
    cases hsome

/-- White space leaves no symbol. -/
theorem scanFrom_blank (total : Nat) {w : List Char} (hw : ∀ c ∈ w, isBlank c = true)
    (rest : List Char) : scanFrom total (w ++ rest) = scanFrom total rest := by
  induction w with
  | nil => rfl
  | cons c w ih =>
    have hnext : next c (w ++ rest) = some (none, w ++ rest) := if_pos (hw c List.mem_cons_self)
    rw [List.cons_append, scanFrom_cons hnext, ih fun d hd => hw d (List.mem_cons_of_mem _ hd)]
    cases scanFrom total rest <;> rfl

/-- A token that is found is scanned, whether it is a symbol or white space. -/
theorem scanFrom_of_token? (total : Nat) {text rest : List Char} {symbol : Option (Symbol Term)}
    (h : token? text = some (symbol, rest)) :
    scanFrom total text = (scanFrom total rest).map (symbol.toList ++ ·) := by
  cases text with
  | nil => cases h
  | cons c cs =>
    rw [token?] at h
    split at h
    · next hblank =>
      cases h
      have hnext : next c cs = some (none, cs) := if_pos hblank
      have hskip := scanFrom_blank total (w := cs.takeWhile isBlank)
        (fun d hd => List.mem_takeWhile_imp hd) (cs.dropWhile isBlank)
      rw [List.takeWhile_append_dropWhile] at hskip
      rw [scanFrom_cons hnext, hskip]
    · exact scanFrom_cons h

/-- Where no token begins, the first character is reported. -/
theorem scanFrom_of_token?_none {total : Nat} {c : Char} {cs : List Char}
    (h : token? (c :: cs) = none) :
    scanFrom total (c :: cs) = .error (.invalidCharacter c (total - (cs.length + 1))) := by
  rw [token?] at h
  split at h
  · cases h
  · exact scanFrom_cons_of_none h

/-- The symbols of a text are those of its longest tokens. -/
theorem scanFrom_of_scanned (total : Nat) {text : List Char} {symbols : List (Symbol Term)}
    (h : Scanned text symbols) : scanFrom total text = .ok symbols := by
  induction h with
  | nil => exact scanFrom_nil total
  | cons hlongest _ ih =>
    rw [scanFrom_of_token? total (longest_iff_token?.mp hlongest), ih]
    rfl

/-- A text without symbols is reported with the character at which no token begins. -/
theorem scanFrom_of_stuck (start : Nat) {text : List Char} {c : Char} {position : Nat}
    (h : Stuck text c position) :
    scanFrom (start + text.length) text = .error (.invalidCharacter c (start + position)) := by
  induction h generalizing start with
  | @here c cs hnone =>
    rw [scanFrom_of_token?_none (token?_eq_none_iff.mpr hnone), List.length_cons]
    congr 2
    omega
  | @later w rest symbol c position hlongest _ ih =>
    have hstart : start + (w ++ rest).length = start + w.length + rest.length := by
      rw [List.length_append, Nat.add_assoc]
    rw [scanFrom_of_token? _ (longest_iff_token?.mp hlongest), hstart, ih, Nat.add_assoc]
    rfl

/-- A text falls into tokens, or scanning it gets stuck. -/
theorem exists_scanned_or_stuck (text : List Char) :
    (∃ symbols, Scanned text symbols) ∨ ∃ c position, Stuck text c position := by
  induction hlength : text.length using Nat.strong_induction_on generalizing text with
  | _ n ih =>
    cases text with
    | nil => exact .inl ⟨[], .nil⟩
    | cons c cs =>
      cases hfound : token? (c :: cs) with
      | none => exact .inr ⟨c, 0, .here (token?_eq_none_iff.mp hfound)⟩
      | some found =>
        obtain ⟨symbol, rest⟩ := found
        obtain ⟨w, htoken, htext⟩ := exists_token_of_token? hfound
        have hlongest : Longest w symbol rest := longest_iff_token?.mpr (htext ▸ hfound)
        have hshorter : rest.length < n := by
          have hpos := List.length_pos_iff.mpr htoken.ne_nil
          rw [← hlength, htext, List.length_append]
          omega
        rw [htext]
        rcases ih rest.length hshorter rest rfl with ⟨symbols, h⟩ | ⟨d, position, h⟩
        · exact .inl ⟨_, .cons hlongest h⟩
        · exact .inr ⟨d, _, .later hlongest h⟩

/-- A text that is stuck is reported at the place. -/
theorem scan_of_stuck {text : List Char} {c : Char} {position : Nat} (h : Stuck text c position) :
    scan text = .error (.invalidCharacter c position) := by
  have hscan := scanFrom_of_stuck 0 h
  rwa [Nat.zero_add, Nat.zero_add] at hscan

/-- A text is scanned into symbols if and only if it has these tokens. -/
theorem scan_eq_ok_iff {text : List Char} {symbols : List (Symbol Term)} :
    scan text = .ok symbols ↔ Scanned text symbols := by
  constructor
  · intro h
    rcases exists_scanned_or_stuck text with ⟨symbols', hscanned⟩ | ⟨c, position, hstuck⟩
    · cases h.symm.trans (scanFrom_of_scanned _ hscanned)
      exact hscanned
    · cases h.symm.trans (scan_of_stuck hstuck)
  · exact scanFrom_of_scanned _

/-- And it is refused if and only if it is stuck. -/
theorem scan_eq_error_iff {text : List Char} {fault : Fault} :
    scan text = .error fault
      ↔ ∃ c position, fault = .invalidCharacter c position ∧ Stuck text c position := by
  constructor
  · intro h
    rcases exists_scanned_or_stuck text with ⟨symbols, hscanned⟩ | ⟨c, position, hstuck⟩
    · cases h.symm.trans (scanFrom_of_scanned _ hscanned)
    · cases h.symm.trans (scan_of_stuck hstuck)
      exact ⟨c, position, rfl, hstuck⟩
  · rintro ⟨c, position, rfl, hstuck⟩
    exact scan_of_stuck hstuck

end Worksheet.Formula
