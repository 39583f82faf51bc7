import Downlevel.Proofs.Json.Reading
import Downlevel.Proofs.Script.Grammar.Evaluation
import Downlevel.Script.Property

/-!
# What written names and strings denote

A string written as a literal, as the access to a property or as the key of one is read back as this
string by the grammar of scripts, and a literal by that of JSON as well. So nothing is lost in
writing, whatever characters the string has, and different strings are written differently.

No control character is written, so what is written stays on one line. The line separators U+2028
and U+2029 are written as they are: within a literal they are no line breaks but characters of the
string.
-/

namespace Downlevel.Script

open Text Scanner Grammar

/-! ## Strings -/

theorem toList_stringLiteral (s : String) :
    (stringLiteral s).toList = Quoted.encode s.toList := by
  rw [stringLiteral, Quoted.quote, String.toList_ofList]

/-- The code points of a string are those of its characters. -/
theorem ofCodePoints_map_toNat (s : String) : ofCodePoints (s.toList.map Char.toNat) = s := by
  have hchar : ∀ c : Char, (if 0xd800 ≤ c.toNat ∧ c.toNat < 0xe000 then '\ufffd'
      else Char.ofNat c.toNat) = c := by
    intro c
    rw [if_neg, Char.ofNat_toNat]
    have := toNat_lt_or_le c
    omega
  have hmap : (s.toList.map Char.toNat).map
      (fun n ↦ if 0xd800 ≤ n ∧ n < 0xe000 then '\ufffd' else Char.ofNat n) = s.toList := by
    rw [List.map_map]
    exact (List.map_congr_left fun c _ ↦ hchar c).trans (List.map_id s.toList)
  rw [ofCodePoints, hmap, String.ofList_toList]

/-- A text is a double-quoted literal of a string: only the quotes at its ends are bare, it has no
control characters, and the scanner of scripts and the reader of JSON read the string from it. -/
structure IsLiteralOf (s text : String) : Prop where
  quoted : ∃ inner, text.toList = '"' :: inner ++ ['"'] ∧
    ∀ before after, inner = before ++ '"' :: after → Quoted.trailingBackslashes before % 2 = 1
  plain : ∀ c ∈ text.toList, 0x20 ≤ c.toNat
  scanned : ∀ rest, ∃ points raw,
    Begins (text.toList ++ rest) (.string points raw) rest ∧ ofCodePoints points = s
  json : Json.parse text = some (.string s)

theorem isLiteralOf_stringLiteral (s : String) : IsLiteralOf s (stringLiteral s) where
  quoted := ⟨s.toList.flatMap Quoted.escape, toList_stringLiteral s,
    fun _ _ h ↦ Quoted.odd_trailingBackslashes h⟩
  plain := by
    rw [toList_stringLiteral]
    exact fun _ ↦ Quoted.le_toNat_of_mem_encode
  scanned rest := by
    obtain ⟨raw, hraw⟩ := begins_string s.toList rest
    rw [toList_stringLiteral]
    exact ⟨_, raw, hraw, ofCodePoints_map_toNat s⟩
  json := by
    have hrender : (Json.string s).render = stringLiteral s := by
      rw [Json.render, stringLiteral]
    rw [← hrender]
    exact Json.parse_render (.string s)

/-! ## Properties -/

/-- The property that an expression accesses, by a name or a string, with the object. -/
def Node.accessed? : Node → Option (Node × String)
  | .member operand name _ => some (operand, name)
  | .index operand (.string literal) _ => some (operand, literal.value)
  | _ => none

/-- The name that the key of a property gives, as a word or a string. -/
def Node.keyName? : Node → Option String
  | .propertyName name => some name
  | .string literal => some literal.value
  | _ => none

/-- The name of a key is the one that the rules of classes ask for. -/
theorem isNamed_eq (n : String) (key : Node) :
    isNamed n key = (key.keyName? == some n) := by
  unfold isNamed Node.keyName?
  split <;> simp

variable {s : String}

/-- A name behind a point, behind an operand. -/
theorem parse_name_access (h : isAsciiName s = true) :
    ∃ m span leading, parse false ('x' :: '.' :: s.toList) = some m ∧
      m.items = [.item span leading
        (.expressionStatement (.member (.identifier "x") s false))] := by
  obtain ⟨c, cs, hs, hstart, -⟩ := exists_of_isAsciiName h
  have hpoint : s.toList.head? ≠ some '.' := by
    rw [hs]
    rintro heq
    cases heq
    exact absurd hstart (by decide)
  have hdigit : Literal.startsWithDigit s.toList = false := by
    rw [hs]
    exact (isBlank_of_isAsciiNameStart hstart).2.2
  have hx := firstPlace_of_begins
    (begins_x (endsName_cons (a := '.') (by decide) (by decide) s.toList))
  have hmark := advance_of_begins hx.2 (begins_point hpoint hdigit)
  have hname := advance_of_begins hmark.2 (begins_last h)
  have hend := advance_of_begins hname.2 begins_nil
  have haccess := accesses_point (Rules.nested (cs.length + 2)) (k := s.toList.length + 2)
    (e := .identifier "x") hmark.1 hname.1 (.inr (.inr (.inr hend.1)))
  have hlength : s.toList.length + 1 = cs.length + 2 := by rw [hs]; rfl
  exact parse_of_accesses hlength hx.1 hmark.1 (by decide) (by decide) haccess rfl (by simp) hend.1

/-- A literal in brackets, behind an operand. -/
theorem parse_string_access (s : String) :
    ∃ m span leading literal,
      parse false ('x' :: '[' :: (Quoted.encode s.toList ++ [']'])) = some m ∧
      m.items = [.item span leading
        (.expressionStatement (.index (.identifier "x") (.string literal) false))] ∧
      literal.value = s := by
  obtain ⟨raw, hraw⟩ := begins_string s.toList [']']
  have hx := firstPlace_of_begins (begins_x (endsName_cons (a := '[') (by decide) (by decide)
    (Quoted.encode s.toList ++ [']'])))
  have hopen := advance_of_begins hx.2 (begins_loneMark (c := '[') (by simp) _)
  have hkey := advance_of_begins hopen.2 hraw
  have hclose := advance_of_begins hkey.2 (begins_loneMark (c := ']') (by simp) [])
  have hend := advance_of_begins hclose.2 begins_nil
  obtain ⟨j, hj⟩ : ∃ j, ('[' :: (Quoted.encode s.toList ++ [']'])).length = j + 2 :=
    ⟨(Quoted.encode s.toList).length, by simp⟩
  -- The key is an expression of its own, one level further down.
  have hoperand := leftHandSide_eq _ (primary_string (Rules.nested j) hkey.1)
    (accesses_none (k := j + 3) _ (.inl hclose.1)) rfl
  have hassignment := assignment_eq (Rules.nested j) (.string hkey.1)
    (by simp [Token.isMark_of_mark hclose.1]) hoperand (.inl hclose.1)
    (by simp [Token.isMark_of_mark hclose.1])
  have hexpression := expression_eq (Rules.nested (j + 1)) (by simp) hassignment
    (by simp [Token.isMark_of_mark hclose.1])
  have haccess := accesses_bracket (Rules.nested (j + 2)) (e := .identifier "x") hopen.1 hexpression
    hclose.1 (.inr (.inr (.inr hend.1)))
  rw [show j + 3 = ('[' :: (Quoted.encode s.toList ++ [']'])).length + 1 by rw [hj]] at haccess
  obtain ⟨m, span, leading, hm, hitems⟩ := parse_of_accesses hj hx.1 hopen.1 (by decide)
    (by decide) haccess rfl (by simp) hend.1
  exact ⟨m, span, leading, _, hm, hitems, ofCodePoints_map_toNat s⟩

/-- The access to a property is read as the access to this property. -/
theorem parse_propertyAccess (s : String) :
    ∃ m span leading e, parse false ("x" ++ propertyAccess s).toList = some m ∧
      m.items = [.item span leading (.expressionStatement e)] ∧
      e.accessed? = some (.identifier "x", s) := by
  unfold propertyAccess
  split
  · next hname =>
    obtain ⟨m, span, leading, hm, hitems⟩ := parse_name_access hname
    exact ⟨m, span, leading, _, by simpa using hm, hitems, rfl⟩
  · obtain ⟨m, span, leading, literal, hm, hitems, hvalue⟩ := parse_string_access s
    refine ⟨m, span, leading, _, ?_, hitems, by rw [Node.accessed?, hvalue]⟩
    simpa [toList_stringLiteral] using hm

/-! ## Keys -/

/-- What follows the key in the declaration of a constant by a property of an object. -/
def behindKey : List Char := [':', 'x', '\x7d', '=', 'x']

/-- A declaration that takes the property with a key from an object. -/
theorem parse_pattern {text : List Char} {kind : TokenKind} (key : Span → Node)
    (hbegins : Begins (text ++ behindKey) kind behindKey)
    (hkey : ∀ (r : Rules) (ctx : Context) (c : Cursor), c.token.kind = kind →
      memberKey r ctx c = some (key c.token.span, c.advance))
    (hmark : ∀ t : Token, t.kind = kind → ∀ m, t.isMark m = false) :
    ∃ m span leading keySpan,
      parse false ('c' :: 'o' :: 'n' :: 's' :: 't' :: '\x7b' :: (text ++ behindKey)) = some m ∧
      m.items = [.item span leading (.variableDeclaration .constant
        [.declarator (.object [.property (key keySpan) (.identifier "x")])
          (some (.identifier "x"))])] := by
  have hconst : Begins ('c' :: 'o' :: 'n' :: 's' :: 't' :: '\x7b' :: (text ++ behindKey))
      (.word "const" false) ('\x7b' :: (text ++ behindKey)) := by
    have hname : isAsciiName "const" = true := by decide
    simpa using begins_name hname (endsName_cons (a := '\x7b') (by decide) (by decide)
      (text ++ behindKey))
  have h₀ := firstPlace_of_begins hconst
  have h₁ := advance_of_begins h₀.2 (begins_loneMark (c := '\x7b') (by simp) _)
  have h₂ := advance_of_begins h₁.2 hbegins
  have h₃ := advance_of_begins h₂.2 (begins_loneMark (c := ':') (by simp) _)
  have h₄ := advance_of_begins h₃.2 (begins_x (endsName_cons (by decide) (by decide) _))
  have h₅ := advance_of_begins h₄.2 (begins_loneMark (c := '\x7d') (by simp) _)
  have h₆ := advance_of_begins h₅.2 (begins_mark (c := '=') ['=', '>'] (by decide) (by decide)
    (by decide) (by decide) nofun)
  have h₇ := advance_of_begins h₆.2 (begins_x nofun)
  have h₈ := advance_of_begins h₇.2 begins_nil
  obtain ⟨n, hn⟩ : ∃ n, ('o' :: 'n' :: 's' :: 't' :: '\x7b' :: (text ++ behindKey)).length = n :=
    ⟨_, rfl⟩
  -- The pattern: its one property has the key, and the name behind the colon.
  have helement := bindingElement_eq (Rules.nested (n + 1)) (binding_x (Rules.nested n) (k := n + 1)
    h₄.1) h₅.1
  have hproperty := patternProperty_eq (Rules.nested (n + 1)) (hkey _ _ _ h₂.1) h₃.1 helement
  have hpattern := (binding_of_brace (Rules.nested (n + 1)) h₁.1).trans
    (objectPattern_eq _ h₁.1 (hmark _ h₂.1) hproperty h₅.1)
  -- The value is a name.
  have hoperand := leftHandSide_eq _ (primary_x (Rules.nested (n + 1)) h₇.1)
    (accesses_none (k := n + 1) _ (.inr (.inr (.inr h₈.1)))) rfl
  have hvalue := assignment_eq (Rules.nested (n + 1)) (.name h₇.1) (Token.isMark_of_finish h₈.1 _)
    hoperand (.inr (.inr (.inr h₈.1))) (Token.isMark_of_finish h₈.1 _)
  have hstatement := statement_of_declarator (Rules.nested (n + 2)) h₀.1 h₁.1
    (declarator_eq (Rules.nested (n + 2)) hpattern h₆.1 hvalue) h₈.1
  rw [← hn] at hstatement
  obtain ⟨m, hm, hitems⟩ := parse_of_statement (by decide) h₀.1 rfl hstatement (by simp) h₈.1
  exact ⟨m, _, _, _, hm, hitems⟩

/-- The key of a property is read as the key of this property. -/
theorem parse_writtenKey (s : String) :
    ∃ m span leading key,
      parse false ("const\x7b" ++ writtenKey s ++ ":x\x7d=x").toList = some m ∧
      m.items = [.item span leading (.variableDeclaration .constant
        [.declarator (.object [.property key (.identifier "x")]) (some (.identifier "x"))])] ∧
      key.keyName? = some s := by
  unfold writtenKey
  split
  · next hname =>
    obtain ⟨m, span, leading, keySpan, hm, hitems⟩ := parse_pattern (fun _ ↦ .propertyName s)
      (begins_name hname (endsName_cons (a := ':') (by decide) (by decide) ['x', '\x7d', '=', 'x']))
      (fun r ctx c h ↦ by simp [memberKey, h]) (fun t h ↦ Token.isMark_of_word h)
    exact ⟨m, span, leading, _, by simpa [behindKey] using hm, hitems, rfl⟩
  · obtain ⟨raw, hraw⟩ := begins_string s.toList behindKey
    obtain ⟨m, span, leading, keySpan, hm, hitems⟩ := parse_pattern
      (fun span ↦ .string ⟨span, s.toList.map Char.toNat⟩) hraw
      (fun r ctx c h ↦ by simp [memberKey, h]) (fun t h m ↦ by rw [Token.isMark, h])
    refine ⟨m, span, leading, _, ?_, hitems, congrArg some (ofCodePoints_map_toNat s)⟩
    simpa [behindKey, toList_stringLiteral] using hm

/-! ## What is written -/

/-- A text is the access to the property with a name: the name behind a point, or else its literal in
brackets. Behind an operand it is read as the access to this property. -/
structure IsAccessTo (s text : String) : Prop where
  form : isAsciiName s = true ∧ text = "." ++ s ∨
    isAsciiName s = false ∧ text = "[" ++ stringLiteral s ++ "]"
  denotes : ∃ m span leading e, parse false ("x" ++ text).toList = some m ∧
    m.items = [.item span leading (.expressionStatement e)] ∧
    e.accessed? = some (.identifier "x", s)

/-- A text is the key of the property with a name: the name itself, or else its literal. In front of
the colon of a pattern it is read as the key of this property. -/
structure IsKeyOf (s text : String) : Prop where
  form : isAsciiName s = true ∧ text = s ∨ isAsciiName s = false ∧ text = stringLiteral s
  denotes : ∃ m span leading key, parse false ("const\x7b" ++ text ++ ":x\x7d=x").toList = some m ∧
    m.items = [.item span leading (.variableDeclaration .constant
      [.declarator (.object [.property key (.identifier "x")]) (some (.identifier "x"))])] ∧
    key.keyName? = some s

theorem isAccessTo_propertyAccess (s : String) : IsAccessTo s (propertyAccess s) where
  form := by
    unfold propertyAccess
    split
    · next h => exact .inl ⟨h, rfl⟩
    · next h => exact .inr ⟨Bool.eq_false_iff.2 h, rfl⟩
  denotes := parse_propertyAccess s

theorem isKeyOf_writtenKey (s : String) : IsKeyOf s (writtenKey s) where
  form := by
    unfold writtenKey
    split
    · next h => exact .inl ⟨h, rfl⟩
    · next h => exact .inr ⟨Bool.eq_false_iff.2 h, rfl⟩
  denotes := parse_writtenKey s

variable {t text : String}

theorem IsLiteralOf.unique (h : IsLiteralOf s text) (h' : IsLiteralOf t text) : s = t := by
  simpa using h.json.symm.trans h'.json

theorem IsAccessTo.unique (h : IsAccessTo s text) (h' : IsAccessTo t text) : s = t := by
  obtain ⟨m, _, _, e, hm, hitems, hs⟩ := h.denotes
  obtain ⟨m', _, _, e', hm', hitems', ht⟩ := h'.denotes
  obtain rfl := Option.some.inj (hm.symm.trans hm')
  have heq : e = e' := by
    have hitem := hitems.symm.trans hitems'
    simp only [List.cons.injEq, Node.item.injEq, Node.expressionStatement.injEq] at hitem
    exact hitem.1.2.2
  simpa [hs, ht] using congrArg Node.accessed? heq

theorem IsKeyOf.unique (h : IsKeyOf s text) (h' : IsKeyOf t text) : s = t := by
  obtain ⟨m, _, _, key, hm, hitems, hs⟩ := h.denotes
  obtain ⟨m', _, _, key', hm', hitems', ht⟩ := h'.denotes
  obtain rfl := Option.some.inj (hm.symm.trans hm')
  have heq : key = key' := by
    have hitem := hitems.symm.trans hitems'
    simp only [List.cons.injEq, Node.item.injEq, Node.variableDeclaration.injEq,
      Node.declarator.injEq, Node.object.injEq, Node.property.injEq] at hitem
    exact hitem.1.2.2.2.1.1.1.1
  simpa [hs, ht] using congrArg Node.keyName? heq

/-- No control character is written. -/
theorem le_toNat_of_mem_written (s : String) :
    ∀ text ∈ [stringLiteral s, propertyAccess s, writtenKey s], ∀ c ∈ text.toList,
      0x20 ≤ c.toNat := by
  have hliteral := (isLiteralOf_stringLiteral s).plain
  have hname (h : isAsciiName s = true) (c : Char) (hc : c ∈ s.toList) : 0x20 ≤ c.toNat :=
    le_toNat_of_isAsciiNamePart (isAsciiNamePart_of_isAsciiName h c hc)
  have haccess : ∀ c ∈ (propertyAccess s).toList, 0x20 ≤ c.toNat := by
    obtain ⟨h, htext⟩ | ⟨-, htext⟩ := (isAccessTo_propertyAccess s).form
    · rw [htext]
      simpa using hname h
    · rw [htext]
      simpa [or_imp, forall_and] using hliteral
  have hkey : ∀ c ∈ (writtenKey s).toList, 0x20 ≤ c.toNat := by
    obtain ⟨h, htext⟩ | ⟨-, htext⟩ := (isKeyOf_writtenKey s).form
    · rw [htext]
      exact hname h
    · rw [htext]
      exact hliteral
  simpa using ⟨hliteral, haccess, hkey⟩

/-- Strings and names are written so that they denote what they were: the literal of a string is
read as this string, by the rules of scripts and of JSON, and the access to a property and its key
are read as those of the property with this name. Different strings are written differently, and
all that is written stands on one line. -/
theorem written_denotes :
    (∀ s, IsLiteralOf s (stringLiteral s) ∧ IsAccessTo s (propertyAccess s) ∧
      IsKeyOf s (writtenKey s)) ∧
    (Function.Injective stringLiteral ∧ Function.Injective propertyAccess ∧
      Function.Injective writtenKey) ∧
    ∀ s, ∀ text ∈ [stringLiteral s, propertyAccess s, writtenKey s],
      (∀ c ∈ text.toList, 0x20 ≤ c.toNat) ∧ '\n' ∉ text.toList ∧ '\r' ∉ text.toList := by
  refine ⟨fun s ↦ ⟨isLiteralOf_stringLiteral s, isAccessTo_propertyAccess s, isKeyOf_writtenKey s⟩,
    ⟨fun s t h ↦ ?_, fun s t h ↦ ?_, fun s t h ↦ ?_⟩, fun s text htext ↦ ?_⟩
  · exact (isLiteralOf_stringLiteral s).unique (h ▸ isLiteralOf_stringLiteral t)
  · exact (isAccessTo_propertyAccess s).unique (h ▸ isAccessTo_propertyAccess t)
  · exact (isKeyOf_writtenKey s).unique (h ▸ isKeyOf_writtenKey t)
  · have hplain := le_toNat_of_mem_written s text htext
    exact ⟨hplain, fun h ↦ absurd (hplain _ h) (by decide), fun h ↦ absurd (hplain _ h) (by decide)⟩

end Downlevel.Script
