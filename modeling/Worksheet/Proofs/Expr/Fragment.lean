import Worksheet.Expr.Symbol
import Worksheet.Proofs.Text.Runs

/-!
# The fragments of a text

A text is cut at its parentheses and operators, which are kept, and at its white space, which is not.
It is cut nowhere else.

* `mem_fragments`: a fragment is a parenthesis or operator, or a word.
* `fragments_word_append`: a word is one fragment in front of whatever ends it.
* `fragments_faithful`: what is kept of a text, and where it is cut.
-/

namespace Worksheet.Expr

open Worksheet.Text (isBlank Stops stops_nil)

variable {held run rest text w : List Char} {c : Char}

/-! ### Characters -/

/-- The characters that are fragments by themselves. -/
def punctuation : List Char := ['(', ')', '+', '-', '*', '/']

/-- These are the characters that are tested for. -/
theorem isPunctuation_iff : isPunctuation c = true ↔ c ∈ punctuation := by
  constructor
  · intro h
    unfold isPunctuation Symbol.ofChar? at h
    split at h
    · decide
    · decide
    · rw [Option.isSome_map] at h
      obtain ⟨o, ho⟩ := Option.isSome_iff_exists.mp h
      rw [← Op.char_of_ofChar? ho]
      cases o <;> decide
  · intro h
    simp only [punctuation, List.mem_cons, List.not_mem_nil, or_false] at h
    rcases h with rfl | rfl | rfl | rfl | rfl | rfl <;> rfl

theorem isBlank_of_mem_punctuation (h : c ∈ punctuation) : isBlank c = false := by
  simp only [punctuation, List.mem_cons, List.not_mem_nil, or_false] at h
  rcases h with rfl | rfl | rfl | rfl | rfl | rfl <;> rfl

theorem char_mem_punctuation (o : Op) : o.char ∈ punctuation := by
  cases o <;> simp [punctuation, Op.char]

/-- A row of characters between white space, parentheses and operators. -/
structure IsWord (w : List Char) : Prop where
  ne_nil : w ≠ []
  notMem : ∀ c ∈ w, c ∉ punctuation
  notBlank : ∀ c ∈ w, isBlank c = false

/-- All others but the blank ones belong to words. -/
theorem isPlain_iff : isPlain c = true ↔ c ∉ punctuation ∧ isBlank c = false := by
  rw [← isPunctuation_iff]
  simp [isPlain]

/-- A word is a row of them. -/
theorem isWord_iff : IsWord w ↔ w ≠ [] ∧ ∀ c ∈ w, isPlain c = true := by
  constructor
  · rintro ⟨hne, hmem, hblank⟩
    exact ⟨hne, fun c hc => isPlain_iff.mpr ⟨hmem c hc, hblank c hc⟩⟩
  · rintro ⟨hne, hplain⟩
    exact ⟨hne, fun c hc => (isPlain_iff.mp (hplain c hc)).1,
      fun c hc => (isPlain_iff.mp (hplain c hc)).2⟩

/-! ### Words

What is read of a word is held until the word ends. A run of plain characters is therefore held
whole, and comes out as one fragment.
-/

theorem cut_cons_of_isPlain (h : isPlain c = true) : cut held (c :: rest) = cut (c :: held) rest := by
  obtain ⟨hmem, hblank⟩ := isPlain_iff.mp h
  rw [cut, if_neg (by simp [hblank]), if_neg (by rwa [isPunctuation_iff])]

/-- A run of plain characters goes on with the word that is held. -/
theorem cut_run_append (hrun : ∀ c ∈ run, isPlain c = true) :
    cut held (run ++ rest) = cut (run.reverse ++ held) rest := by
  induction run generalizing held with
  | nil => rfl
  | cons c run ih =>
    obtain ⟨hc, hrun⟩ := List.forall_mem_cons.mp hrun
    rw [List.cons_append, cut_cons_of_isPlain hc, ih hrun, List.reverse_cons, List.append_assoc,
      List.singleton_append]

/-- Where no word goes on, what has been read before is a fragment. -/
theorem cut_of_stops (h : Stops isPlain rest) : cut held rest = flush held ++ cut [] rest := by
  cases rest with
  | nil => simp [cut, flush]
  | cons c rest =>
    have hc : isPlain c = false := h c rfl
    by_cases hblank : isBlank c = true
    · simp [cut, hblank, flush]
    · have hmem : isPunctuation c = true := by
        by_contra hmem
        rw [isPunctuation_iff] at hmem
        rw [Bool.not_eq_true] at hblank
        cases hc.symm.trans (isPlain_iff.mpr ⟨hmem, hblank⟩)
      simp [cut, hblank, hmem, flush]

/-- A word is one fragment in front of whatever ends it. -/
theorem fragments_word_append (hw : IsWord w) (hrest : Stops isPlain rest) :
    fragments (w ++ rest) = w :: fragments rest := by
  obtain ⟨hne, hplain⟩ := isWord_iff.mp hw
  have hflush : flush (w.reverse ++ []) = [w] := by simp [flush, hne]
  rw [fragments, cut_run_append hplain, cut_of_stops hrest, hflush]
  rfl

theorem fragments_word (hw : IsWord w) : fragments w = [w] := by
  have h : fragments (w ++ []) = w :: fragments [] := fragments_word_append hw stops_nil
  rwa [List.append_nil] at h

/-! ### Fragments

A fragment comes out either where a mark is read or where a word that is held is ended.
-/

/-- What is held is a word, or nothing. -/
theorem mem_flush (hheld : ∀ c ∈ held, isPlain c = true) (h : w ∈ flush held) : IsWord w := by
  unfold flush at h
  split at h
  · cases h
  · next hne =>
    rw [List.mem_singleton.mp h]
    refine isWord_iff.mpr ⟨by simpa using hne, fun c hc => hheld c (List.mem_reverse.mp hc)⟩

/-- Whatever comes out behind a word that is held is a mark or a word. -/
theorem mem_cut (hheld : ∀ c ∈ held, isPlain c = true) (h : w ∈ cut held text) :
    (∃ o ∈ punctuation, w = [o]) ∨ IsWord w := by
  induction text generalizing held with
  | nil => exact .inr (mem_flush hheld h)
  | cons c text ih =>
    have hnil : ∀ d ∈ ([] : List Char), isPlain d = true := List.forall_mem_nil _
    rw [cut] at h
    split at h
    · rcases List.mem_append.mp h with h | h
      · exact .inr (mem_flush hheld h)
      · exact ih hnil h
    · next hblank =>
      split at h
      · next hmem =>
        rcases List.mem_append.mp h with h | h
        · exact .inr (mem_flush hheld h)
        · rcases List.mem_cons.mp h with rfl | h
          · exact .inl ⟨c, isPunctuation_iff.mp hmem, rfl⟩
          · exact ih hnil h
      · next hmem =>
        have hc : isPlain c = true := by simp [isPlain, hmem, hblank]
        exact ih (List.forall_mem_cons.mpr ⟨hc, hheld⟩) h

/-- A fragment is a parenthesis or operator, or a word. -/
theorem mem_fragments (h : w ∈ fragments text) : (∃ o ∈ punctuation, w = [o]) ∨ IsWord w :=
  mem_cut (List.forall_mem_nil _) h

/-- White space in front of a text makes no difference. -/
theorem fragments_blank_append (hw : ∀ c ∈ w, isBlank c = true) (rest : List Char) :
    fragments (w ++ rest) = fragments rest := by
  induction w with
  | nil => rfl
  | cons c w ih =>
    obtain ⟨hc, hw⟩ := List.forall_mem_cons.mp hw
    have hcut := fragments_append_blank hc [] (w ++ rest)
    rw [List.nil_append] at hcut
    rw [List.cons_append, hcut, ih hw]
    rfl

/-- The fragments of a text are its parentheses and operators and the words between them, and hold it
all but for the white space. A text may be cut at white space and at a parenthesis or operator, and a
word is not cut. -/
theorem fragments_faithful (text rest : List Char) :
    (∀ w ∈ fragments text, (∃ o ∈ punctuation, w = [o]) ∨ IsWord w)
      ∧ (fragments text).flatten = text.filter (!isBlank ·)
      ∧ (∀ w, w ≠ [] → (∀ c ∈ w, isBlank c = true) →
          fragments (text ++ w ++ rest) = fragments text ++ fragments rest)
      ∧ (∀ o ∈ punctuation,
          fragments (text ++ [o] ++ rest) = fragments text ++ [[o]] ++ fragments rest)
      ∧ (IsWord text → fragments text = [text]) := by
  refine ⟨fun w hw => mem_fragments hw, flatten_fragments text, ?_, ?_, fragments_word⟩
  · intro w hne hw
    obtain ⟨c, w, rfl⟩ := List.exists_cons_of_ne_nil hne
    obtain ⟨hc, hw⟩ := List.forall_mem_cons.mp hw
    rw [List.append_assoc, List.cons_append, fragments_append_blank hc, fragments_blank_append hw]
  · intro o ho
    rw [List.append_assoc, List.append_assoc, List.singleton_append, List.singleton_append,
      fragments_append_punctuation (isPunctuation_iff.mpr ho) (isBlank_of_mem_punctuation ho)]

/-- `a1` and `b1` are words, and are cut apart by a tab and a no-break space as by a parenthesis. -/
theorem fragments_faithful_blank :
    fragments (['a', '1'] ++ ['\t', '\u00a0'] ++ ['b', '1']) = [['a', '1'], ['b', '1']]
      ∧ fragments (['a', '1'] ++ ['('] ++ ['b', '1']) = [['a', '1'], ['('], ['b', '1']] := by
  have hword : ∀ c ∈ ['a', 'b'], fragments [c, '1'] = [[c, '1']] := by
    intro c hc
    apply (fragments_faithful [c, '1'] []).2.2.2.2
    rw [isWord_iff]
    simp only [List.mem_cons, List.not_mem_nil, or_false] at hc
    rcases hc with rfl | rfl <;> simp [isPlain, isPunctuation, isBlank, Symbol.ofChar?, Op.ofChar?]
  obtain ⟨-, -, hblank, hmark, -⟩ := fragments_faithful ['a', '1'] ['b', '1']
  rw [hblank _ (by simp) (by simp [isBlank]), hmark '(' (by simp [punctuation]),
    hword 'a' (by simp), hword 'b' (by simp)]
  exact ⟨rfl, rfl⟩

end Worksheet.Expr
