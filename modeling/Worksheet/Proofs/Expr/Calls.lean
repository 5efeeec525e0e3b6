import Worksheet.Expr.Integer
import Worksheet.Proofs.Expr.Conservation
import Worksheet.Proofs.Expr.Fragment
import Worksheet.Proofs.Expr.Unguarded

/-!
# The calls of the machine

The machine calls for the values of operands and for quotients. What it calls for depends on the row of
symbols only, and not on whether the row is an expression: it asks for the operands in the order in
which they stand, and for a quotient when a division is done, so between two symbols the divisions that
wait and those that have been done are those that have been read.

* `noted`: a call that is written down with its answer.
* `Told`, `Owes`: what the calls of a computation tell of its end, and what they are to be.
* `owes_step`, `owes_run`: what one symbol and a row of symbols ask for.
* `value_accounted`: how a run over any row of tokens ends, and what it has called for until then.
-/

namespace Worksheet.Expr

variable {σ ε N α β γ : Type} {m : Type → Type}

/-! ### Calls -/

/-- A call of the machine: for the value of an operand, or for a quotient. -/
inductive Call (N α : Type) where
  | operand (a : α)
  | quotient (left right : N)

/-- What a call comes to. -/
def Call.answer (A : Arithmetic m N) (operand : α → m N) : Call N α → m N
  | .operand a => operand a
  | quotient left right => A.div left right

/-- The operand that is asked for. -/
def Call.operand? : Call N α → Option α
  | operand a => some a
  | quotient _ _ => none

/-- Whether a call is for a quotient. -/
def Call.divides : Call N α → Bool
  | operand _ => false
  | quotient _ _ => true

/-- A call and what it has come to. -/
structure Entry (ε N α : Type) where
  call : Call N α
  answer : Except ε N

/-- The operands that have been asked for, in order. -/
def asked (calls : List (Entry ε N α)) : List α := calls.filterMap (·.call.operand?)

/-- How many quotients have been asked for. -/
def quotients (calls : List (Entry ε N α)) : Nat := calls.countP (·.call.divides)

/-- No call has failed. -/
def Answered (calls : List (Entry ε N α)) : Prop := ∀ entry ∈ calls, ∃ value, entry.answer = .ok value

/-- What is asked for adds up over calls. -/
theorem asked_append (calls calls' : List (Entry ε N α)) :
    asked (calls ++ calls') = asked calls ++ asked calls' := List.filterMap_append

theorem quotients_append (calls calls' : List (Entry ε N α)) :
    quotients (calls ++ calls') = quotients calls + quotients calls' := List.countP_append

/-- Calls that have been answered, one row of them after another. -/
theorem Answered.append {calls calls' : List (Entry ε N α)} (h : Answered calls)
    (h' : Answered calls') : Answered (calls ++ calls') :=
  List.forall_mem_append.mpr ⟨h, h'⟩

/-! ### Writing calls down

The machine does not know of the notes: it is run with an arithmetic and operands that write down
each call beside answering it.
-/

/-- A computation that may fail, with a memory that it may change. -/
abbrev Effect (ε σ : Type) := ExceptT ε (StateM σ)

/-- A computation that may also find a fault with the row of symbols. -/
abbrev Checked (ε σ : Type) := ExceptT Malformed (Effect ε σ)

/-- A memory, with the calls that have been made. -/
abbrev Notes (ε σ N α : Type) := σ × List (Entry ε N α)

/-- Makes a call, and writes it down with its answer. -/
def noted (call : Call N α) (x : Effect ε σ N) : Effect ε (Notes ε σ N α) N :=
  ExceptT.mk do
    let (memory, calls) ← get
    let (answer, memory) := x.run.run memory
    set (memory, calls ++ [⟨call, answer⟩])
    return answer

/-- The arithmetic, with its quotients written down. -/
def Arithmetic.noted (α : Type) (A : Arithmetic (Effect ε σ) N) :
    Arithmetic (Effect ε (Notes ε σ N α)) N where
  add := A.add
  sub := A.sub
  mul := A.mul
  div left right := Expr.noted (.quotient left right) (A.div left right)

/-- The values of operands, with the operands written down. -/
def notedOperand (operand : α → Effect ε σ N) (a : α) : Effect ε (Notes ε σ N α) N :=
  noted (.operand a) (operand a)

/-! ### What a computation owes

For each part of the machine it is said beforehand which operands it asks for and how many divisions
it does. Parts that follow each other ask for their operands in turn, and the second does or leaves
the divisions that the first has left.
-/

/-- How a computation of the machine ends, with its memory at the end. -/
def ending (x : Checked ε σ β) (memory : σ) : Except ε (Except Malformed β) × σ :=
  x.run.run.run memory

/-- Of two computations the second begins with the memory that the first has left. -/
theorem ending_bind (x : Checked ε σ β) (f : β → Checked ε σ γ) (memory : σ) :
    ending (x >>= f) memory = match ending x memory with
      | (.ok (.ok b), memory) => ending (f b) memory
      | (.ok (.error fault), memory) => (.ok (.error fault), memory)
      | (.error e, memory) => (.error e, memory) := by
  simp only [ending, ExceptT.run_bind, StateT.run_bind]
  rcases x.run.run.run memory with ⟨e | fault | b, memory⟩ <;> rfl

/-- A computation without faults ends without one. -/
theorem ending_lift (x : Effect ε σ β) (memory : σ) :
    ending (liftM x : Checked ε σ β) memory
      = ((x.run.run memory).1.map .ok, (x.run.run memory).2) := by
  show (Except.ok <$> x).run.run memory = _
  rw [ExceptT.run_map, StateT.run_map]
  rfl

/-- What calls tell of how a computation ends, where `answer` says what they come to. Each has been
answered so, with some memory. They ask for the given operands in turn. A call that fails is the last
one. With a result, all operands have been asked for, and of the given divisions those are left that the
result holds. -/
structure Told (answer : Call N α → Effect ε σ N) (operands : List α) (divisions : Nat)
    (left : β → Nat) (result : Except ε (Except Malformed β)) (calls : List (Entry ε N α)) :
    Prop where
  honest : ∀ entry ∈ calls, ∃ memory, entry.answer = ((answer entry.call).run.run memory).1
  asked : Expr.asked calls <+: operands
  answered : ∀ r, result = .ok r → Answered calls
  raised : ∀ e, result = .error e →
    ∃ before call, calls = before ++ [⟨call, .error e⟩] ∧ Answered before
  whole : ∀ b, result = .ok (.ok b) →
    Expr.asked calls = operands ∧ quotients calls + left b = divisions

/-- A computation and the same with its calls written down: they end alike, and the calls are those of
the given operands and divisions. -/
def Owes (answer : Call N α → Effect ε σ N) (operands : List α) (divisions : Nat) (left : β → Nat)
    (x : Checked ε σ β) (x' : Checked ε (Notes ε σ N α) β) : Prop :=
  ∀ memory calls, ∃ result memory' new, ending x memory = (result, memory')
    ∧ ending x' (memory, calls) = (result, memory', calls ++ new)
    ∧ Told answer operands divisions left result new

variable {answer : Call N α → Effect ε σ N}

namespace Told

variable {operands operands' : List α} {divisions more : Nat} {left : β → Nat} {left' : γ → Nat}
  {calls calls' : List (Entry ε N α)}

/-- Behind a failure nothing more is asked for, whatever there was to ask. -/
theorem error {e : ε} (h : Told answer operands divisions left (.error e) calls) :
    Told answer (operands ++ operands') (divisions + more) left' (.error e) calls := by
  refine ⟨h.honest, h.asked.trans (List.prefix_append _ _), ?_, ?_, ?_⟩
  · intro r hr
    cases hr
  · rintro _ ⟨⟩
    exact h.raised e rfl
  · intro b hb
    cases hb

theorem fault {fault : Malformed}
    (h : Told answer operands divisions left (.ok (.error fault)) calls) :
    Told answer (operands ++ operands') (divisions + more) left' (.ok (.error fault)) calls := by
  refine ⟨h.honest, h.asked.trans (List.prefix_append _ _), ?_, ?_, ?_⟩
  · intro r _
    exact h.answered _ rfl
  · intro e he
    cases he
  · intro b hb
    cases hb

/-- With a result, the calls go on where they were. -/
theorem append {b : β} {result : Except ε (Except Malformed γ)}
    (h : Told answer operands divisions left (.ok (.ok b)) calls)
    (h' : Told answer operands' (left b + more) left' result calls') :
    Told answer (operands ++ operands') (divisions + more) left' result (calls ++ calls') := by
  obtain ⟨hasked, hquotients⟩ := h.whole b rfl
  have hcalls := h.answered _ rfl
  refine ⟨List.forall_mem_append.mpr ⟨h.honest, h'.honest⟩, ?_, ?_, ?_, ?_⟩
  · rw [asked_append, hasked]
    exact (List.prefix_append_right_inj _).mpr h'.asked
  · intro r hr
    exact hcalls.append (h'.answered r hr)
  · intro e he
    obtain ⟨before, call, rfl, hbefore⟩ := h'.raised e he
    exact ⟨calls ++ before, call, (List.append_assoc _ _ _).symm, hcalls.append hbefore⟩
  · intro c hc
    obtain ⟨hasked', hquotients'⟩ := h'.whole c hc
    rw [asked_append, quotients_append, hasked, hasked']
    exact ⟨rfl, by omega⟩

end Told

/-- Where no call is made, nothing is asked for and nothing fails. -/
theorem told_nil {r : Except Malformed β} {divisions : Nat} {left : β → Nat}
    (h : ∀ b, r = .ok b → left b = divisions) :
    Told answer ([] : List α) divisions left (.ok r) ([] : List (Entry ε N α)) := by
  refine ⟨List.forall_mem_nil _, List.prefix_rfl, ?_, ?_, ?_⟩
  · intro r' _ entry hentry
    cases hentry
  · intro e he
    cases he
  · rintro b ⟨⟩
    exact ⟨rfl, (Nat.zero_add _).trans (h b rfl)⟩

/-- A result that is there owes nothing. -/
theorem owes_pure (b : β) (left : β → Nat) :
    Owes answer ([] : List α) (left b) left (pure b) (pure b) := by
  intro memory calls
  refine ⟨.ok (.ok b), memory, [], rfl, ?_, told_nil ?_⟩
  · rw [List.append_nil]
    rfl
  · rintro _ ⟨⟩
    rfl

theorem owes_throw (fault : Malformed) (divisions : Nat) (left : β → Nat) :
    Owes answer ([] : List α) divisions left (throw fault) (throw fault) := by
  intro memory calls
  refine ⟨.ok (.error fault), memory, [], rfl, ?_, told_nil ?_⟩
  · rw [List.append_nil]
    rfl
  · intro b hb
    cases hb

/-- One computation after another: the second has the divisions that the first has left, and more. -/
theorem owes_bind {operands operands' : List α} {divisions more : Nat} {left : β → Nat}
    {left' : γ → Nat} {x : Checked ε σ β} {x' : Checked ε (Notes ε σ N α) β}
    {f : β → Checked ε σ γ} {f' : β → Checked ε (Notes ε σ N α) γ}
    (hx : Owes answer operands divisions left x x')
    (hf : ∀ b, Owes answer operands' (left b + more) left' (f b) (f' b)) :
    Owes answer (operands ++ operands') (divisions + more) left' (x >>= f) (x' >>= f') := by
  intro memory calls
  obtain ⟨result, memory', new, hend, hend', htold⟩ := hx memory calls
  match result with
  -- Behind a failure or a fault nothing more is called for.
  | .error e =>
    refine ⟨.error e, memory', new, ?_, ?_, htold.error⟩
    · rw [ending_bind, hend]
    · rw [ending_bind, hend']
  | .ok (.error fault) =>
    refine ⟨.ok (.error fault), memory', new, ?_, ?_, htold.fault⟩
    · rw [ending_bind, hend]
    · rw [ending_bind, hend']
  | .ok (.ok b) =>
    obtain ⟨result, memory'', new', hrest, hrest', htold'⟩ := hf b memory' (calls ++ new)
    refine ⟨result, memory'', new ++ new', ?_, ?_, htold.append htold'⟩
    · rw [ending_bind, hend]
      exact hrest
    · rw [ending_bind, hend', ← List.append_assoc]
      exact hrest'

/-- The answer is given, and the call stands last. -/
theorem run_noted (call : Call N α) (x : Effect ε σ N) (memory : σ)
    (calls : List (Entry ε N α)) :
    (noted call x).run.run (memory, calls)
      = ((x.run.run memory).1, (x.run.run memory).2, calls ++ [⟨call, (x.run.run memory).1⟩]) := rfl

/-- A call by itself asks for what it is. -/
theorem owes_noted (call : Call N α) :
    Owes answer call.operand?.toList (if call.divides then 1 else 0) (fun _ => 0)
      (liftM (answer call) : Checked ε σ N)
      (liftM (noted call (answer call)) : Checked ε (Notes ε σ N α) N) := by
  intro memory calls
  refine ⟨_, _, [⟨call, ((answer call).run.run memory).1⟩], ending_lift _ memory, ?_, ?_⟩
  · rw [ending_lift, run_noted]
  have hhonest : ∀ entry ∈ [(⟨call, ((answer call).run.run memory).1⟩ : Entry ε N α)],
      ∃ memory, entry.answer = ((answer entry.call).run.run memory).1 := by
    intro entry hentry
    rw [List.mem_singleton.mp hentry]
    exact ⟨memory, rfl⟩
  have hasked : ∀ result, asked [(⟨call, result⟩ : Entry ε N α)] = call.operand?.toList := by
    intro result
    cases call <;> rfl
  have hquotients : ∀ result, quotients [(⟨call, result⟩ : Entry ε N α)]
      = if call.divides then 1 else 0 := by
    intro result
    cases call <;> rfl
  generalize ((answer call).run.run memory).1 = result at hhonest ⊢
  cases result with
  | error e =>
    refine ⟨hhonest, (hasked _).symm ▸ List.prefix_rfl, ?_, ?_, ?_⟩
    · intro r hr
      cases hr
    · rintro _ ⟨⟩
      exact ⟨[], call, rfl, List.forall_mem_nil _⟩
    · intro b hb
      cases hb
  | ok b =>
    refine ⟨hhonest, (hasked _).symm ▸ List.prefix_rfl, ?_, ?_, ?_⟩
    · intro r _ entry hentry
      rw [List.mem_singleton.mp hentry]
      exact ⟨b, rfl⟩
    · intro e he
      cases he
    · intro b' _
      exact ⟨hasked _, hquotients _⟩

/-! ### What the machine owes

A division waits from the time when it is read to the time when it is done. So the divisions on the
stack, those that have been done, and those that are yet to be read add up to the same number all
the time.
-/

/-- How many divisions wait. -/
def Machine.divisions (s : Machine N) : Nat := s.pending.count (.op .div)

/-- Whether a symbol asks for a quotient. -/
def Symbol.divides : Symbol α → Bool
  | .op .div => true
  | _ => false

/-- How many divisions a symbol brings. -/
def Symbol.divisions (x : Symbol α) : Nat := if x.divides then 1 else 0

namespace Machine

theorem divisions_push (s : Machine N) (value : N) : (s.push value).divisions = s.divisions := rfl

theorem divisions_hold_opening (s : Machine N) : (s.hold .opening).divisions = s.divisions := by
  simp [divisions, hold]

/-- An operator waits as one division, if it is one. -/
theorem divisions_hold_op (s : Machine N) (o : Op) :
    (s.hold (.op o)).divisions = s.divisions + (Symbol.op (α := α) o).divisions := by
  cases o <;> simp [divisions, hold, Symbol.divisions, Symbol.divides]

end Machine

variable (A : Arithmetic (Effect ε σ) N) (operand : α → Effect ε σ N)

/-- Only a division asks for anything. -/
theorem owes_apply (o : Op) (l r : N) :
    Owes (Call.answer A operand) ([] : List α) (Symbol.op (α := α) o).divisions (fun _ => 0)
      (liftM (A.apply o l r) : Checked ε σ N)
      (liftM ((A.noted α).apply o l r) : Checked ε (Notes ε σ N α) N) := by
  cases o with
  | add => exact owes_pure (A.add l r) fun _ => 0
  | sub => exact owes_pure (A.sub l r) fun _ => 0
  | mul => exact owes_pure (A.mul l r) fun _ => 0
  | div => exact owes_noted (.quotient l r)

/-- A division that a reduction does was one of those that waited. -/
theorem owes_reduce (due : Op → Bool) (s : Machine N) :
    Owes (Call.answer A operand) ([] : List α) s.divisions Machine.divisions
      (Machine.reduce A due s) (Machine.reduce (A.noted α) due s) := by
  cases Machine.reduction due s with
  | rests h =>
    rw [Machine.reduce_of_rests h, Machine.reduce_of_rests h]
    exact owes_pure s Machine.divisions
  | missing hdue hvalues =>
    rw [Machine.reduce_missing hdue hvalues, Machine.reduce_missing hdue hvalues]
    exact owes_throw _ _ _
  | op hdue s left right =>
    rw [Machine.reduce_op hdue, Machine.reduce_op hdue, Machine.divisions_push,
      Machine.divisions_hold_op (α := α), Machine.divisions_push, Nat.add_comm]
    refine owes_bind (owes_apply A operand _ left right) fun value => ?_
    rw [Nat.zero_add]
    exact owes_pure (s.push value) Machine.divisions

/-- A group that is closed may have one more division done. -/
theorem owes_close (s : Machine N) :
    Owes (Call.answer A operand) ([] : List α) s.divisions Machine.divisions (s.close A)
      (s.close (A.noted α)) := by
  match s with
  | ⟨.opening :: pending, values⟩ =>
    have hclose := owes_reduce A operand (!·.isAdditive) ⟨pending, values⟩
    rwa [← Machine.divisions_hold_opening] at hclose
  | ⟨[], values⟩ => exact owes_throw _ _ _
  | ⟨.op o :: pending, values⟩ => exact owes_throw _ _ _

/-- A symbol asks for the operand that it is. A division that it brings is done or waits. -/
theorem owes_step (s : Machine N) (x : Symbol α) :
    Owes (Call.answer A operand) x.operand?.toList (s.divisions + x.divisions) Machine.divisions
      (s.step A operand x) (s.step (A.noted α) (notedOperand operand) x) := by
  cases x with
  | opening =>
    have hdivisions : s.divisions + (Symbol.opening (α := α)).divisions
        = (s.hold .opening).divisions := (Machine.divisions_hold_opening s).symm
    rw [Machine.step_opening, Machine.step_opening, hdivisions]
    exact owes_pure (s.hold .opening) Machine.divisions
  | closing =>
    exact owes_bind (owes_reduce A operand Op.isAdditive s) fun s => owes_close A operand s
  | op o =>
    have hhold : ∀ s : Machine N, Owes (Call.answer A operand) ([] : List α)
        (s.divisions + (Symbol.op (α := α) o).divisions) Machine.divisions
        (pure (s.hold (.op o)) : Checked ε σ (Machine N))
        (pure (s.hold (.op o)) : Checked ε (Notes ε σ N α) (Machine N)) := by
      intro s
      rw [← Machine.divisions_hold_op]
      exact owes_pure (s.hold (.op o)) Machine.divisions
    rw [Machine.step_op, Machine.step_op]
    split
    · exact owes_bind (owes_reduce A operand Op.isAdditive s) hhold
    · exact hhold s
  | operand a =>
    rw [Machine.step_operand, Machine.step_operand, Nat.add_comm]
    refine owes_bind (owes_noted (.operand a)) fun value => ?_
    rw [Nat.zero_add]
    exact owes_reduce A operand (!·.isAdditive) (s.push value)

/-- The operands of a row are asked for symbol by symbol. -/
theorem operands_cons (x : Symbol α) (xs : List (Symbol α)) :
    (x :: xs).filterMap Symbol.operand? = x.operand?.toList ++ xs.filterMap Symbol.operand? := by
  cases x <;> rfl

/-- The divisions that wait before a row and those in it are done in its course, or wait behind it. -/
theorem owes_run (s : Machine N) (xs : List (Symbol α)) :
    Owes (Call.answer A operand) (xs.filterMap Symbol.operand?)
      (s.divisions + xs.countP Symbol.divides) Machine.divisions (s.run A operand xs)
      (s.run (A.noted α) (notedOperand operand) xs) := by
  induction xs generalizing s with
  | nil => exact owes_pure s Machine.divisions
  | cons x xs ih =>
    have hdivisions : (x :: xs).countP Symbol.divides = x.divisions + xs.countP Symbol.divides := by
      rw [List.countP_cons, Nat.add_comm]
      rfl
    rw [operands_cons, hdivisions, ← Nat.add_assoc]
    exact owes_bind (owes_step A operand s x) ih

/-- A value that is left leaves no division. -/
theorem owes_left (s : Machine N) :
    Owes answer ([] : List α) s.divisions (fun _ => 0) (s.left : Checked ε σ N)
      (s.left : Checked ε (Notes ε σ N α) N) := by
  -- Where a value is left, no operator waits, and so no division does.
  match s with
  | ⟨.op o :: pending, values⟩ => exact owes_throw _ _ _
  | ⟨.opening :: pending, values⟩ => exact owes_throw _ _ _
  | ⟨[], []⟩ => exact owes_throw _ _ _
  | ⟨[], [value]⟩ => exact owes_pure value fun _ => 0
  | ⟨[], _ :: _ :: _⟩ => exact owes_throw _ _ _

/-- A row of symbols asks for its operands in turn, and for as many quotients as it has divisions. -/
theorem owes_value (xs : List (Symbol α)) :
    Owes (Call.answer A operand) (xs.filterMap Symbol.operand?) (xs.countP Symbol.divides)
      (fun _ => 0) (value A operand xs) (value (A.noted α) (notedOperand operand) xs) := by
  have hrun := owes_run A operand Machine.initial xs
  have hfinish : ∀ s : Machine N, Owes (Call.answer A operand) ([] : List α) (s.divisions + 0)
      (fun _ => 0) (s.finish A) (s.finish (A.noted α)) := fun s =>
    owes_bind (owes_reduce A operand Op.isAdditive s) fun s => owes_left s
  have hvalue := owes_bind hrun hfinish
  rwa [List.append_nil, Nat.add_zero, Machine.divisions, Machine.initial, List.count_nil,
    Nat.zero_add] at hvalue

/-! ### Rows of tokens

In a row of tokens the six parentheses and operators are marks, and every other text is an operand.
What has been said of symbols is counted here in tokens.
-/

/-- The tokens that are no operands. -/
def marks : List (List Char) := punctuation.map ([·])

/-- A symbol is written as the token that it is read from. -/
theorem text_ofFragment (w : List Char) : (Symbol.ofFragment w).text id = w := by
  unfold Symbol.ofFragment
  split
  · next c =>
    unfold Symbol.ofChar?
    split
    · rfl
    · rfl
    · cases ho : Op.ofChar? c with
      | none => rfl
      | some o => exact congrArg ([·]) (Op.char_of_ofChar? ho)
  · rfl

theorem ofFragment_injective : Function.Injective Symbol.ofFragment :=
  Function.LeftInverse.injective text_ofFragment

/-- A token is an operand unless it is a mark. -/
theorem operand?_ofFragment (w : List Char) :
    (Symbol.ofFragment w).operand? = if w ∈ marks then none else some w := by
  have htext := text_ofFragment w
  cases hx : Symbol.ofFragment w with
  | opening =>
    rw [← htext, hx]
    rfl
  | closing =>
    rw [← htext, hx]
    rfl
  | op o =>
    rw [← htext, hx]
    cases o <;> rfl
  | operand a =>
    have hw : w ∉ marks := by
      intro hw
      simp only [marks, punctuation, List.map_cons, List.map_nil, List.mem_cons, List.not_mem_nil,
        or_false] at hw
      rcases hw with rfl | rfl | rfl | rfl | rfl | rfl <;> cases hx
    rw [if_neg hw, ← htext, hx]
    rfl

/-- The operands of a row of tokens are those that are no marks. -/
theorem operands_ofFragment (tokens : List (List Char)) :
    (tokens.map Symbol.ofFragment).filterMap Symbol.operand? = tokens.filter (· ∉ marks) := by
  rw [List.filterMap_map, ← List.filterMap_eq_filter]
  apply List.filterMap_congr
  intro w _
  rw [Function.comp_apply, operand?_ofFragment]
  by_cases hw : w ∈ marks <;> simp [hw, Option.guard]

section
variable [DecidableEq α] {depth : Nat} {xs : List (Symbol α)}

/-- The only symbol that asks for a quotient is the division. -/
theorem countP_divides (xs : List (Symbol α)) :
    xs.countP Symbol.divides = xs.count (.op .div) := by
  apply List.countP_congr
  intro x _
  cases x with
  | op o => cases o <;> simp [Symbol.divides]
  | _ => simp [Symbol.divides]

/-- The operands of a row and its operators make up its surplus. -/
theorem surplus_eq_operands (xs : List (Symbol α)) :
    surplus xs = (xs.filterMap Symbol.operand?).length
      - (xs.count (.op .add) + xs.count (.op .sub) + xs.count (.op .mul) + xs.count (.op .div)) := by
  induction xs with
  | nil => rfl
  | cons x xs ih =>
    rw [surplus_cons, ih, operands_cons, List.length_append]
    cases x with
    | op o => cases o <;> simp [Symbol.weight, Symbol.operand?] <;> omega
    | operand a =>
      simp [Symbol.weight, Symbol.operand?]
      omega
    | _ => simp [Symbol.weight, Symbol.operand?]

/-- In no part of a balanced row from its front are more parentheses closed than open, and all are
closed in the whole. -/
theorem Balanced.counts (h : Balanced depth xs) :
    (∀ front, front <+: xs → front.count .closing ≤ depth + front.count .opening)
      ∧ xs.count .closing = depth + xs.count .opening := by
  induction xs generalizing depth with
  | nil =>
    have hdepth : depth = 0 := h
    refine ⟨fun front hfront => ?_, by simp [hdepth]⟩
    rw [List.prefix_nil.mp hfront]
    exact Nat.zero_le _
  | cons x xs ih =>
    have hfronts : (∀ front, front <+: xs →
          (x :: front).count .closing ≤ depth + (x :: front).count .opening)
        ∧ (x :: xs).count .closing = depth + (x :: xs).count .opening := by
      cases x with
      | opening =>
        obtain ⟨hfronts, hwhole⟩ := ih h
        refine ⟨fun front hfront => ?_, by simp [hwhole]; omega⟩
        have hcount := hfronts front hfront
        simp
        omega
      | closing =>
        obtain ⟨hdepth, hbalanced⟩ := h
        obtain ⟨hfronts, hwhole⟩ := ih hbalanced
        refine ⟨fun front hfront => ?_, by simp [hwhole]; omega⟩
        have hcount := hfronts front hfront
        simp
        omega
      | op o => simpa using ih h
      | operand a => simpa using ih h
    refine ⟨fun front hfront => ?_, hfronts.2⟩
    rcases List.prefix_cons_iff.mp hfront with rfl | ⟨front, rfl, hprefix⟩
    · exact Nat.zero_le _
    · exact hfronts.1 front hprefix

end

theorem count_ofFragment (tokens : List (List Char)) (w : List Char) :
    (tokens.map Symbol.ofFragment).count (Symbol.ofFragment w) = tokens.count w :=
  List.count_map_of_injective tokens _ ofFragment_injective w

/-- As many operands and operators, and as many parentheses, as an expression has. -/
structure Accounted (tokens : List (List Char)) : Prop where
  operands : (tokens.filter (· ∉ marks)).length
    = tokens.count ['+'] + tokens.count ['-'] + tokens.count ['*'] + tokens.count ['/'] + 1
  opened : ∀ front, front <+: tokens → front.count [')'] ≤ front.count ['(']
  closed : tokens.count [')'] = tokens.count ['(']

/-- What is conserved shows in the numbers of the tokens. -/
theorem accounted_of_conserved {P : List Char → Prop} {tokens : List (List Char)}
    (h : Conserved P (Machine.initial : Machine N) (tokens.map Symbol.ofFragment)) :
    Accounted tokens := by
  have hopening : ∀ front : List (List Char),
      (front.map Symbol.ofFragment).count .opening = front.count ['('] :=
    fun front => count_ofFragment front ['(']
  have hclosing : ∀ front : List (List Char),
      (front.map Symbol.ofFragment).count .closing = front.count [')'] :=
    fun front => count_ofFragment front [')']
  obtain ⟨hfronts, hwhole⟩ := h.balanced.counts
  have hdepth : (Machine.initial : Machine N).openings = 0 := rfl
  rw [hdepth, Nat.zero_add] at hwhole
  refine ⟨?_, fun front hfront => ?_, ?_⟩
  · have hsurplus : surplus (tokens.map Symbol.ofFragment) = 1 :=
      (zero_add _).symm.trans h.surplus
    have hadd : (tokens.map Symbol.ofFragment).count (.op .add) = tokens.count ['+'] :=
      count_ofFragment tokens ['+']
    have hsub : (tokens.map Symbol.ofFragment).count (.op .sub) = tokens.count ['-'] :=
      count_ofFragment tokens ['-']
    have hmul : (tokens.map Symbol.ofFragment).count (.op .mul) = tokens.count ['*'] :=
      count_ofFragment tokens ['*']
    have hdiv : (tokens.map Symbol.ofFragment).count (.op .div) = tokens.count ['/'] :=
      count_ofFragment tokens ['/']
    rw [surplus_eq_operands, operands_ofFragment, hadd, hsub, hmul, hdiv] at hsurplus
    omega
  · have hle := hfronts _ (hfront.map Symbol.ofFragment)
    rwa [hdepth, Nat.zero_add, hopening, hclosing] at hle
  · rwa [hopening, hclosing] at hwhole

/-- A row of symbols with a value is conserved, and each of its operands has been found. -/
theorem conserved_of_ending {A : Arithmetic (Effect ε σ) N} {operand : α → Effect ε σ N}
    {P : α → Prop} (hoperand : ∀ a, SatisfiesM (fun _ => P a) (operand a)) {xs : List (Symbol α)}
    {memory memory' : σ} {v : N} (h : ending (value A operand xs) memory = (.ok (.ok v), memory')) :
    Conserved P (Machine.initial : Machine N) xs := by
  have hvalue := satisfiesM_value (A := A) hoperand xs
  rw [SatisfiesM_ExceptT_eq, SatisfiesM_ExceptT_eq, SatisfiesM_StateT_eq] at hvalue
  have hmemory := SatisfiesM_Id_eq.mp (hvalue memory)
  exact hmemory (.ok v) (congrArg Prod.fst h) v rfl

/-- A run over any row of tokens, with computations that may fail and may change a memory for operands
and quotients. A machine that takes from its stacks as it goes never finds one empty. The run ends with
a value, with a fault of the row, or with the failure of the call that it has made last, and of no
other. It asks for the operands in the order in which they stand, and for none of them twice. If there is
a value, all operands have been asked for, and a quotient for each division; and operands, operators and
parentheses are in number those of an expression. -/
theorem value_accounted (A : Arithmetic (Effect ε σ) N) (operand : List Char → Effect ε σ N)
    (memory : σ) (tokens : List (List Char)) :
    let symbols := tokens.map Symbol.ofFragment
    Unguarded.value A operand symbols = (value A operand symbols).adapt .malformed
      ∧ ∃ result memory' calls, ending (value A operand symbols) memory = (result, memory')
        ∧ ending (value (A.noted _) (notedOperand operand) symbols) (memory, [])
          = (result, memory', calls)
        ∧ asked calls <+: tokens.filter (· ∉ marks)
        ∧ (∀ r, result = .ok r → Answered calls)
        ∧ (∀ e, result = .error e →
            ∃ before call, calls = before ++ [⟨call, .error e⟩] ∧ Answered before)
        ∧ ∀ v, result = .ok (.ok v) → asked calls = tokens.filter (· ∉ marks)
            ∧ quotients calls = tokens.count ['/'] ∧ Accounted tokens := by
  intro symbols
  refine ⟨Unguarded.value_eq A operand symbols, ?_⟩
  obtain ⟨result, memory', calls, hend, hnoted, htold⟩ := owes_value A operand symbols memory []
  have hdivisions : symbols.countP Symbol.divides = tokens.count ['/'] :=
    (countP_divides symbols).trans (count_ofFragment tokens ['/'])
  rw [operands_ofFragment, hdivisions] at htold
  refine ⟨result, memory', calls, hend, hnoted, htold.asked, htold.answered, htold.raised, ?_⟩
  rintro v rfl
  obtain ⟨hasked, hquotients⟩ := htold.whole v rfl
  have hfound : ∀ a, SatisfiesM (fun _ => True) (operand a) := fun a =>
    SatisfiesM.of_true fun _ => trivial
  exact ⟨hasked, hquotients, accounted_of_conserved (conserved_of_ending hfound hend)⟩

/-- Finds the number of a digit, and counts the digits. -/
def counted (w : List Char) : Effect Unit Nat Nat := do
  modify (· + 1)
  return Integer.ofDigits w

/-- The arithmetic of natural numbers, where no quotient fails. -/
def natural : Arithmetic (Effect Unit Nat) Nat :=
  ⟨(· + ·), (· - ·), (· * ·), fun left right => pure (left / right)⟩

/-- In the row `6 ( / 2 )` the division is done when `2` is there, on an operand outside of the group. -/
theorem value_accounted_group :
    ending (value natural counted ([['6'], ['('], ['/'], ['2'], [')']].map Symbol.ofFragment)) 0
        = (.ok (.ok 3), 2)
      ∧ Accounted [['6'], ['('], ['/'], ['2'], [')']] := by
  have hvalue : ending (value natural counted
      ([['6'], ['('], ['/'], ['2'], [')']].map Symbol.ofFragment)) 0 = (.ok (.ok 3), 2) := by cbv
  obtain ⟨-, result, memory', calls, hend, -, -, -, -, hwhole⟩ :=
    value_accounted natural counted 0 [['6'], ['('], ['/'], ['2'], [')']]
  cases hvalue.symm.trans hend
  exact ⟨hvalue, (hwhole 3 rfl).2.2⟩

end Worksheet.Expr
