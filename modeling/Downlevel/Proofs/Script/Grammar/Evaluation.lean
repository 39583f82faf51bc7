import Downlevel.Proofs.Script.Grammar.Carrying
import Downlevel.Proofs.Script.WrittenTokens

/-!
# Reading short scripts

What the rules of the grammar read is known from the kinds of the tokens that follow. Each rule that
a short script goes through has a lemma here that says what it reads of certain tokens, and where it
stands then; the lemma of a rule uses those of the rules it enters. Two scripts are read from their
tokens in this way: the access to a property, and a declaration that takes a property of an object.
-/

namespace Downlevel.Script

open Text

/-! ## Tokens of a known kind -/

namespace Token

variable {t : Token} {m w : String}

theorem isMark_of_mark (h : t.kind = .mark m) (s : String) : t.isMark s = (m == s) := by
  rw [isMark, h]

theorem isWord_of_mark (h : t.kind = .mark m) (s : String) : t.isWord s = false := by
  rw [isWord, h]

theorem isMark_of_word {b : Bool} (h : t.kind = .word w b) (s : String) : t.isMark s = false := by
  rw [isMark, h]

theorem isWord_of_word (h : t.kind = .word w false) (s : String) : t.isWord s = (w == s) := by
  rw [isWord, h]

theorem isMark_of_finish (h : t.kind = .finish) (s : String) : t.isMark s = false := by
  rw [isMark, h]

theorem isFinish_of_finish (h : t.kind = .finish) : t.isFinish = true := by
  rw [isFinish, h]

end Token

namespace Grammar

/-! ## Reading step by step -/

section Steps

variable {α β : Type} {ctx : Context} {c d e : Cursor}

@[simp] theorem bind_apply (p : Reader α) (f : α → Reader β) (ctx : Context) (c : Cursor) :
    (p >>= f) ctx c = (p ctx c).bind fun x ↦ f x.1 ctx x.2 := rfl

@[simp] theorem map_apply (p : Reader α) (f : α → β) (ctx : Context) (c : Cursor) :
    (f <$> p) ctx c = (p ctx c).map fun x ↦ (f x.1, x.2) := by
  change (p ctx c).bind _ = _
  cases p ctx c <;> rfl

@[simp] theorem pure_apply (a : α) (ctx : Context) (c : Cursor) :
    (pure a : Reader α) ctx c = some (a, c) := rfl

@[simp] theorem peek_apply (ctx : Context) (c : Cursor) : peek ctx c = some (c.token, c) := rfl

@[simp] theorem place_apply (ctx : Context) (c : Cursor) : place ctx c = some (c, c) := rfl

@[simp] theorem peekSecond_apply (ctx : Context) (c : Cursor) :
    peekSecond ctx c = some (c.advance.token, c) := rfl

@[simp] theorem skip_apply (ctx : Context) (c : Cursor) : skip ctx c = some ((), c.advance) := rfl

@[simp] theorem isAtMark_apply (s : String) (ctx : Context) (c : Cursor) :
    isAtMark s ctx c = some (c.token.isMark s, c) := rfl

@[simp] theorem isAtWord_apply (s : String) (ctx : Context) (c : Cursor) :
    isAtWord s ctx c = some (c.token.isWord s, c) := rfl

@[simp] theorem isAtLess_apply (ctx : Context) (c : Cursor) :
    isAtLess ctx c = some (c.token.isMark "<" || c.token.isMark "<<", c) := rfl

@[simp] theorem isTyped_apply (ctx : Context) (c : Cursor) :
    isTyped ctx c = some (ctx.typed, c) := rfl

@[simp] theorem ask_apply (f : Context → α) (ctx : Context) (c : Cursor) :
    ask f ctx c = some (f ctx, c) := rfl

@[simp] theorem read_apply (ctx : Context) (c : Cursor) :
    (read : Reader Context) ctx c = some (ctx, c) := rfl

@[simp] theorem guardThat_true (ctx : Context) (c : Cursor) :
    guardThat true ctx c = some ((), c) := rfl

theorem repeatFrom_none {step : α → Reader (Option α)} {a : α} (hsize : 0 < ctx.size)
    (h : step a ctx c = some (none, d)) : repeatFrom a step ctx c = some (a, d) := by
  obtain ⟨n, hn⟩ := Nat.exists_eq_add_of_lt hsize
  rw [repeatFrom, hn, grow, bind_apply, h]
  rfl

theorem repeatFrom_some {step : α → Reader (Option α)} {a b : α} (hsize : 1 < ctx.size)
    (h : step a ctx c = some (some b, d)) (h' : step b ctx d = some (none, e)) :
    repeatFrom a step ctx c = some (b, e) := by
  obtain ⟨n, hn⟩ : ∃ n, ctx.size = n + 1 + 1 := ⟨ctx.size - 2, by omega⟩
  rw [repeatFrom, hn, grow, bind_apply, h, Option.bind_some]
  dsimp only
  rw [grow, bind_apply, h']
  rfl

/-- A list of one element, which ends where no comma follows. -/
theorem commaSeparated_single {p : Reader α} {a : α} (hsize : 0 < ctx.size)
    (h : p ctx c = some (a, d)) (hcomma : d.token.isMark "," = false) :
    commaSeparated p ctx c = some ([a], d) := by
  rw [commaSeparated, bind_apply, h, Option.bind_some, bind_apply, repeatFrom_none hsize (d := d)]
  · rfl
  · simp [takeMark_eq, hcomma]

end Steps

/-- What is known at the start of a script of `k` characters in the plain dialect. -/
def Context.plain (k : Nat) : Context := .ofScript false (k + 2)

section Plain

variable {k : Nat}

@[simp] theorem Context.typed_plain : (Context.plain k).typed = false := rfl

@[simp] theorem Context.size_plain : (Context.plain k).size = k + 2 := rfl

@[simp] theorem Context.allowsIn_plain : (Context.plain k).allowsIn = true := rfl

@[simp] theorem Context.allowsIndex_plain : (Context.plain k).allowsIndex = true := rfl

@[simp] theorem Context.isAmbient_plain : (Context.plain k).isAmbient = false := rfl

@[simp] theorem Context.isGenerator_plain : (Context.plain k).isGenerator = false := rfl

@[simp] theorem inside_plain {α : Type} (p : Reader α) :
    inside p (.plain k) = p (.plain k) := rfl

end Plain

/-! ## Operands -/

variable (r : Rules) {k : Nat} {c c₁ c' : Cursor} {e key : Node} {n : String}

/-- A token at which every operand ends, and so does every expression but the one in front of an
equals sign. -/
def EndsOperand (t : Token) : Prop :=
  t.kind = .mark "]" ∨ t.kind = .mark closeBrace ∨ t.kind = .mark "=" ∨ t.kind = .finish

/-- A token that is read as an operand of its own. -/
inductive StartsOperand (t : Token) : Prop
  | name (h : t.kind = .word "x" false)
  | string {points : List Nat} {raw : String} (h : t.kind = .string points raw)

theorem accesses_none (h : EndsOperand c.token) :
    accesses r true e (.plain k) c = some ((e, false), c) := by
  refine repeatFrom_none (by simp) ?_
  rcases h with h | h | h | h <;> simp [h, closeBrace]

/-- A point and a name behind an operand. -/
theorem accesses_point (hpoint : c.token.kind = .mark ".")
    (hname : c.advance.token.kind = .word n false) (hend : EndsOperand c.advance.advance.token) :
    accesses r true e (.plain k) c = some ((.member e n false, false), c.advance.advance) := by
  refine repeatFrom_some (by simp) (d := c.advance.advance) ?_ ?_
  · simp [hpoint, memberName, hname]
  · rcases hend with h | h | h | h <;> simp [h, closeBrace]

/-- A key in brackets behind an operand. -/
theorem accesses_bracket (hopen : c.token.kind = .mark "[")
    (hkey : r.expression (.plain k) c.advance = some (key, c'))
    (hclose : c'.token.kind = .mark "]") (hend : EndsOperand c'.advance.token) :
    accesses r true e (.plain k) c = some ((.index e key false, false), c'.advance) := by
  refine repeatFrom_some (by simp) (d := c'.advance) ?_ ?_
  · simp [hopen, indexAccess, mark, takeMark_eq, Token.isMark_of_mark hopen, hkey,
      Token.isMark_of_mark hclose]
  · rcases hend with h | h | h | h <;> simp [h, closeBrace]

theorem primary_string {points : List Nat} {raw : String} {ctx : Context}
    (h : c.token.kind = .string points raw) :
    primary r ctx c = some (.string ⟨c.token.span, points⟩, c.advance) := by
  simp [primary, h]

theorem name_x (h : c.token.kind = .word "x" false) :
    name (.plain k) c = some ("x", c.advance) := by
  simp [name, Token.name?, h, isReserved, reservedWords, isOperatorHere]

theorem primary_x (h : c.token.kind = .word "x" false) :
    primary r (.plain k) c = some (.identifier "x", c.advance) := by
  simp [primary, wordOperand, h, Token.isWord_of_word h, name_x h]

theorem leftHandSide_eq {ctx : Context} {start : Node}
    (hstart : primary r ctx c = some (start, c₁))
    (h : accesses r true start ctx c₁ = some ((e, false), c')) (hpure : markPure e = e) :
    leftHandSide r ctx c = some (e, c') := by
  simp [leftHandSide, hstart, h, hpure]

theorem updateOperator_of_endsOperand {t : Token} (h : EndsOperand t) :
    updateOperator t = none := by
  rcases h with h | h | h | h <;> simp [updateOperator, h, closeBrace]

theorem binaryOperator_of_endsOperand (h : EndsOperand c.token) :
    binaryOperator (.plain k) c = some (none, c) := by
  have hnone : ∀ m ∈ ["]", closeBrace, "="],
      (m == ">") = false ∧ BinaryOperator.ofText? m = none := by decide
  have hmark : ∀ m ∈ ["]", closeBrace, "="], c.token.kind = .mark m →
      binaryOperator (.plain k) c = some (none, c) := by
    intro m hm h
    simp [binaryOperator, h, spelling, greaterSpelling, Token.isMark_of_mark h, hnone m hm]
  rcases h with h | h | h | h
  · exact hmark _ (by simp) h
  · exact hmark _ (by simp) h
  · exact hmark _ (by simp) h
  · simp [binaryOperator, h]

theorem operand_eq (hstart : StartsOperand c.token)
    (h : leftHandSide r (.plain k) c = some (e, c')) (hend : EndsOperand c'.token) :
    operand r 0 (.plain k) c = some (e, c') := by
  have hpostfixed : postfixed r (.plain k) c = some (e, c') := by
    simp [postfixed, h, updateOperator_of_endsOperand hend]
  have hunary : unary r (.plain k) c = some (e, c') := by
    cases hstart with
    | name h => simp [unary, unaryOperator, updateOperator, h, Token.isWord, hpostfixed]
    | string h => simp [unary, unaryOperator, updateOperator, h, Token.isWord, hpostfixed]
  have hfirst : firstOperand r 0 (.plain k) c = some (e, c') := by
    cases hstart with
    | name h => simp [firstOperand, h, hunary]
    | string h => simp [firstOperand, h, hunary]
  rw [operand, bind_apply, hfirst, Option.bind_some]
  refine repeatFrom_none (by simp) ?_
  simp [binaryOperator_of_endsOperand hend]

/-! ## Expressions -/

theorem arrow_eq_none (hstart : StartsOperand c.token)
    (harrow : c.advance.token.isMark "=>" = false) :
    arrow r (.plain k) c = some (none, c) := by
  cases hstart with
  | name h =>
    simp [arrow, Token.isWord_of_word h, harrow, startsParameters, Token.isMark_of_word h]
  | string h => simp [arrow, Token.isWord, Token.name?, h, startsParameters, Token.isMark]

theorem assignment_eq (hstart : StartsOperand c.token)
    (harrow : c.advance.token.isMark "=>" = false)
    (h : leftHandSide r (.plain k) c = some (e, c')) (hend : EndsOperand c'.token)
    (hequals : c'.token.isMark "=" = false) :
    assignment r (.plain k) c = some (e, c') := by
  have hyield : c.token.isWord "yield" = false := by
    cases hstart with
    | name h => simp [Token.isWord_of_word h]
    | string h => simp [Token.isWord, h]
  have hoperator : assignmentOperator (.plain k) c' = some (none, c') := by
    have hnone : AssignmentOperator.ofText? "]" = none ∧
        AssignmentOperator.ofText? closeBrace = none := by decide
    rcases hend with h | h | h | h
    · simp [assignmentOperator, spelling, greaterSpelling, Token.isMark_of_mark h, h, hnone]
    · simp [assignmentOperator, spelling, greaterSpelling, Token.isMark_of_mark h, h, hnone,
        show (closeBrace == ">") = false by decide]
    · simp [Token.isMark_of_mark h] at hequals
    · simp [assignmentOperator, spelling, greaterSpelling, Token.isMark_of_finish h, h]
  have hquestion : c'.token.isMark "?" = false := by
    rcases hend with h | h | h | h <;>
      simp [Token.isMark, h, closeBrace]
  simp [assignment, hyield, arrow_eq_none r hstart harrow, operand_eq r hstart h hend, hoperator,
    hquestion]

theorem expression_eq {ctx : Context} (hsize : 0 < ctx.size)
    (h : r.assignment ctx c = some (e, c')) (hcomma : c'.token.isMark "," = false) :
    expression r ctx c = some (e, c') := by
  simp [expression, commaSeparated_single hsize h hcomma]

/-! ## Declarations -/

/-- A key of a pattern, read by the rule of keys, with its value. -/
theorem patternProperty_eq {element : Reader Node}
    (hkey : memberKey r (.plain k) c = some (key, c.advance))
    (hcolon : c.advance.token.kind = .mark ":")
    (h : element (.plain k) c.advance.advance = some (e, c')) :
    patternProperty r element (.plain k) c = some (.property key e, c') := by
  have hkeyed : isKeyed (.plain k) c = some (true, c) := by
    simp [isKeyed, Token.isMark_of_mark hcolon]
  simp [patternProperty, hkeyed, hkey, mark, takeMark_eq, Token.isMark_of_mark hcolon, h]

/-- A pattern of one property. -/
theorem objectPattern_eq {element rest : Reader Node} (hopen : c.token.kind = .mark openBrace)
    (hmark : ∀ s, c.advance.token.isMark s = false)
    (h : patternProperty r element (.plain k) c.advance = some (e, c'))
    (hclose : c'.token.kind = .mark closeBrace) :
    objectPattern r element rest (.plain k) c = some (.object [e], c'.advance) := by
  have hproperties : ∀ step : (List Node × Bool) → Reader (Option (List Node × Bool)),
      step ([], false) (.plain k) c.advance = some (some ([e], false), c') →
      step ([e], false) (.plain k) c' = some (none, c') →
      repeatFrom ([], false) step (.plain k) c.advance = some (([e], false), c') :=
    fun step h h' ↦ repeatFrom_some (by simp) h h'
  rw [objectPattern, bind_apply]
  simp only [mark, bind_apply, takeMark_eq, Token.isMark_of_mark hopen]
  simp only [beq_self_eq_true, if_true, Option.bind_some, guardThat_true]
  rw [hproperties]
  · simp [Token.isMark_of_mark hclose]
  · simp [takeMark_eq, hmark, h, Token.isMark_of_mark hclose]
  · simp [Token.isMark_of_mark hclose]

theorem binding_x (h : c.token.kind = .word "x" false) :
    binding r (.plain k) c = some (.identifier "x", c.advance) := by
  simp [binding, Token.isMark_of_word h, name_x h]

theorem binding_of_brace (h : c.token.kind = .mark openBrace) :
    binding r (.plain k) c = objectPattern r (bindingElement r)
      (do return .identifier (← name)) (.plain k) c := by
  have hbracket : (openBrace == "[") = false := by decide
  simp [binding, Token.isMark_of_mark h, hbracket]

/-- A name as the value of a property of a pattern. -/
theorem bindingElement_eq (h : r.binding (.plain k) c = some (e, c'))
    (hclose : c'.token.kind = .mark closeBrace) :
    bindingElement r (.plain k) c = some (e, c') := by
  simp [bindingElement, h, withDefault, takeMark_eq, Token.isMark_of_mark hclose,
    show (closeBrace == "=") = false by decide]

theorem declarator_eq {pattern : Node} (h : r.binding (.plain k) c = some (pattern, c₁))
    (hequals : c₁.token.kind = .mark "=")
    (hvalue : r.assignment (.plain k) c₁.advance = some (e, c')) :
    declarator r (.plain k) c = some (.declarator pattern (some e), c') := by
  simp [declarator, h, optionalAnnotation, takeMark_eq, Token.isMark_of_mark hequals, hvalue]

/-! ## Statements -/

theorem semicolon_of_finish (h : c.token.kind = .finish) {ctx : Context} :
    semicolon ctx c = some ((), c) := by
  simp [semicolon, takeMark_eq, Token.isMark_of_finish h, Token.isFinish_of_finish h]

/-- A script that is one expression, which starts with a name and goes on with a mark. -/
theorem statement_of_expression {m : String} (hstart : c.token.kind = .word "x" false)
    (hmark : c.advance.token.kind = .mark m) (hcolon : m ≠ ":")
    (h : r.expression (.plain k) c = some (e, c')) (hend : c'.token.kind = .finish) :
    statement r false (.plain k) c
      = some (.item ⟨c.token.span.start, c'.lastStop⟩ c.token.comments (.expressionStatement e),
        c') := by
  have hstatement : expressionStatement r (.plain k) c = some (.expressionStatement e, c') := by
    simp [expressionStatement, Token.isMark_of_mark hmark, hcolon, h, semicolon_of_finish hend]
  simp [statement, Token.isMark_of_word hstart, Token.isWord_of_word hstart, itemOf, plainStatement,
    takeMark_eq, isAtVariables, isAtAmbient, typedDeclaration, reservedStatement, hstatement,
    spanFrom]

/-- A script that declares one constant. -/
theorem statement_of_declarator (hstart : c.token.kind = .word "const" false)
    (hmark : c.advance.token.kind = .mark openBrace)
    {pattern value : Node}
    (h : declarator r (.plain k) c.advance = some (.declarator pattern (some value), c'))
    (hend : c'.token.kind = .finish) :
    statement r false (.plain k) c
      = some (.item ⟨c.token.span.start, c'.lastStop⟩ c.token.comments
        (.variableDeclaration .constant [.declarator pattern (some value)]), c') := by
  have hlist := commaSeparated_single (by simp) h (Token.isMark_of_finish hend _)
  have hstatement : variableStatement r false (.plain k) c
      = some (.variableDeclaration .constant [.declarator pattern (some value)], c') := by
    simp [variableStatement, variableList, variableKind, takeWord_eq, Token.isWord_of_word hstart,
      hlist, hasValue, semicolon_of_finish hend]
  simp [statement, Token.isMark_of_word hstart, Token.isWord_of_word hstart, itemOf, plainStatement,
    takeMark_eq, isAtVariables, Token.isWord_of_mark hmark, hstatement, spanFrom]

/-! ## Scripts -/

/-- The place in front of the first token of a text. -/
def firstPlace (source : List Char) : Cursor :=
  let (token, rest) := Scanner.next false true 0 source
  ⟨token, rest, 0, false, []⟩

@[simp] theorem hasDefault_firstPlace (source : List Char) :
    (firstPlace source).hasDefault = false := rfl

@[simp] theorem hasDefault_advance (c : Cursor) : c.advance.hasDefault = c.hasDefault := rfl

/-- The first token of a text and the next ones. -/
theorem advance_of_begins {cs rest : List Char} {kind : TokenKind} (hc : c.rest = cs)
    (h : Scanner.Begins cs kind rest) : c.advance.token.kind = kind ∧ c.advance.rest = rest := by
  subst hc
  exact h (opensGap c.token) false c.token.span.stop

theorem firstPlace_of_begins {source rest : List Char} {kind : TokenKind}
    (h : Scanner.Begins source kind rest) :
    (firstPlace source).token.kind = kind ∧ (firstPlace source).rest = rest :=
  h false true 0

theorem interpreter_of_nameStart {a : Char} {cs : List Char} (ha : isAsciiNameStart a = true) :
    Scanner.interpreter (a :: cs) = (none, 0, a :: cs) := by
  have hbom : a ≠ '\ufeff' := by rintro rfl; exact absurd ha (by decide)
  have hhash : a ≠ '#' := by rintro rfl; exact absurd ha (by decide)
  simp [Scanner.interpreter, hbom, hhash, width]

/-- A script of one statement that exports nothing and is no directive. -/
theorem parse_of_statement {a : Char} {cs : List Char} {span : Span} {leading : List Comment}
    {body : Node} {w : String} (ha : isAsciiNameStart a = true)
    (hword : (firstPlace (a :: cs)).token.kind = .word w false)
    (hnames : exportedNames (.item span leading body) = [])
    (h : statement (Rules.nested (cs.length + 2)) false (.plain (cs.length + 1))
      (firstPlace (a :: cs)) = some (.item span leading body, c'))
    (hdefault : c'.hasDefault = false) (hend : c'.token.kind = .finish) :
    ∃ m, parse false (a :: cs) = some m ∧ m.items = [.item span leading body] := by
  have hdirective : ∀ n, directiveText (firstPlace (a :: cs)).token n = none := by
    intro n
    unfold directiveText
    rw [hword]
    split <;> rfl
  have hfirst : (firstPlace (a :: cs)).token.isFinish = false := by rw [Token.isFinish, hword]
  have hitems : statements (Rules.nested (cs.length + 3)) Token.isFinish (.plain (cs.length + 1))
      (firstPlace (a :: cs)) = some ([.item span leading body], c') := by
    have hstatement : (Rules.nested (cs.length + 3)).statement false (.plain (cs.length + 1))
        (firstPlace (a :: cs)) = some (.item span leading body, c') := h
    rw [statements, bind_apply, repeatFrom_some (by simp)
      (b := ([.item span leading body], false)) (d := c') (e := c')]
    · rfl
    · simp [hfirst, hstatement, hdirective]
    · simp [Token.isFinish_of_finish hend]
  refine ⟨⟨none, [.item span leading body], c'.token.comments, c'.inTypes.reverse⟩, ?_, rfl⟩
  rw [parse, interpreter_of_nameStart ha]
  change (moduleBody (Rules.nested (cs.length + 3)) none (.plain (cs.length + 1))
    (firstPlace (a :: cs))).map (·.1) = _
  simp [moduleBody, hitems, Token.isFinish_of_finish hend, hdefault, hnames, areDistinct]

/-- A script that is an operand with accesses behind it. -/
theorem parse_of_accesses {cs : List Char} {m : String} {j : Nat} (hlength : cs.length = j + 2)
    (hx : (firstPlace ('x' :: cs)).token.kind = .word "x" false)
    (hmark : (firstPlace ('x' :: cs)).advance.token.kind = .mark m) (hcolon : m ≠ ":")
    (harrow : m ≠ "=>")
    (h : accesses (Rules.nested (j + 2)) true (.identifier "x") (.plain (cs.length + 1))
      (firstPlace ('x' :: cs)).advance = some ((e, false), c'))
    (hpure : markPure e = e) (hdefault : c'.hasDefault = false) (hend : c'.token.kind = .finish) :
    ∃ m span leading, parse false ('x' :: cs) = some m ∧
      m.items = [.item span leading (.expressionStatement e)] := by
  have hside := leftHandSide_eq _ (primary_x (Rules.nested (j + 2)) hx) h hpure
  have hassignment := assignment_eq (Rules.nested (j + 2)) (.name hx)
    (by simp [Token.isMark_of_mark hmark, harrow]) hside (.inr (.inr (.inr hend)))
    (Token.isMark_of_finish hend _)
  have hexpression := expression_eq (Rules.nested (j + 3)) (by simp) hassignment
    (Token.isMark_of_finish hend _)
  have hstatement := statement_of_expression (Rules.nested (j + 4)) hx hmark hcolon hexpression hend
  rw [show j + 4 = cs.length + 2 by omega] at hstatement
  obtain ⟨m, hm, hitems⟩ := parse_of_statement (by decide) hx rfl hstatement hdefault hend
  exact ⟨m, _, _, hm, hitems⟩

end Grammar

end Downlevel.Script
