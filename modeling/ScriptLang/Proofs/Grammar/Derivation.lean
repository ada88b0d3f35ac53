import ScriptLang.Grammar.Parser

/-!
# Derivations of the grammar

What the grammar of programs derives, said without any reading: a phrase stands for a stretch of
tokens together with the tree that the stretch spells. The rules are those of the grammar,

* a program is a row of statements;
* a statement is a declaration, a print statement or an expression, and a semicolon;
* an expression is an operation, or an operation, an equals sign and an expression;
* an operation is an object literal with member names behind it, or a comparison;
* comparisons, terms and factors are chains of the next tighter phrase, grouped from the left;
* a member is a primary expression with member names behind it;
* a primary expression is a name, a number of 64 bits, a string, or an expression in parentheses.

A chain is written left-recursively, so the rule that lengthens a chain also groups it. Every
derivation carries a number of levels: at most so many expressions are nested inside one another.
An expression spends one level, and no other phrase spends any.

* `Derives.mono` — whatever is derived within some levels is derived within more of them.
* `Derives.of_words` — a derivation sees the words of tokens, and never where they stand.
-/

namespace ScriptLang

/-- The kind of the token that spells a comparator. -/
def Comparator.kind : Comparator → TokenKind
  | equal => .equalEqual
  | notEqual => .bangEqual
  | less => .less
  | lessEqual => .lessEqual
  | greater => .greater
  | greaterEqual => .greaterEqual

/-- The kind of the token that spells an operator. -/
def Operator.kind : Operator → TokenKind
  | plus => .plus
  | minus => .minus
  | times => .star
  | divide => .slash
  | modulo => .percent

/-- Is it an operator of sums? The others are operators of products. -/
def Operator.isSum : Operator → Bool
  | plus | minus => true
  | times | divide | modulo => false

/-- A token without its place: what it is and its text. -/
structure Word where
  kind : TokenKind
  text : String
deriving DecidableEq, Repr

/-- What a token is, wherever it stands. -/
def Token.word (t : Token) : Word := ⟨t.kind, t.text⟩

namespace Grammar

/-- The phrases of the grammar that stand for expressions. -/
inductive Phrase where
  | expression
  | operation
  /-- An object literal with the member names behind it. -/
  | object
  /-- The front of an object literal: its opening brace and some of its properties. -/
  | openObject
  | comparison | term | factor | member | primary
deriving DecidableEq, Repr

/-- **What a phrase derives.** `Derives phrase levels w e` says that the tokens `w` are such a
phrase, that they spell the tree `e`, and that at most `levels` expressions are nested inside one
another in them. -/
inductive Derives : Phrase → Nat → List Token → Expr → Prop where
  | expression {n w e} (operation : Derives .operation n w e) : Derives .expression (n + 1) w e
  | assign {n u v target value} {sign : Token} (left : Derives .operation n u target)
      (h_sign : sign.kind = .equal) (right : Derives .expression n v value) :
      Derives .expression (n + 1) (u ++ sign :: v) (.assign target value)
  | objectOperation {n w e} (object : Derives .object n w e) : Derives .operation n w e
  | comparisonOperation {n w e} (comparison : Derives .comparison n w e) :
      Derives .operation n w e
  | openBrace {n} {brace : Token} (h_brace : brace.kind = .leftBrace) :
      Derives .openObject n [brace] (.object [])
  /-- Every property, the last one included, is followed by a comma. -/
  | property {n u v properties value} {key colon comma : Token}
      (front : Derives .openObject n u (.object properties)) (h_key : key.kind = .identifier)
      (h_colon : colon.kind = .colon) (right : Derives .expression n v value)
      (h_comma : comma.kind = .comma) :
      Derives .openObject n (u ++ key :: colon :: (v ++ [comma]))
        (.object (properties ++ [(key.text, value)]))
  | closeBrace {n u e} {brace : Token} (front : Derives .openObject n u e)
      (h_brace : brace.kind = .rightBrace) : Derives .object n (u ++ [brace]) e
  | objectMember {n u e} {dot name : Token} (base : Derives .object n u e)
      (h_dot : dot.kind = .dot) (h_name : name.kind = .identifier) :
      Derives .object n (u ++ [dot, name]) (.member e name.text)
  | comparison {n w e} (term : Derives .term n w e) : Derives .comparison n w e
  | compare {n u v left right} {sign : Token} (c : Comparator)
      (first : Derives .comparison n u left) (h_sign : sign.kind = c.kind)
      (second : Derives .term n v right) :
      Derives .comparison n (u ++ sign :: v) (.compare c left right)
  | term {n w e} (factor : Derives .factor n w e) : Derives .term n w e
  | sum {n u v left right} {sign : Token} (o : Operator) (h_sum : o.isSum = true)
      (first : Derives .term n u left) (h_sign : sign.kind = o.kind)
      (second : Derives .factor n v right) :
      Derives .term n (u ++ sign :: v) (.binary o left right)
  | factor {n w e} (member : Derives .member n w e) : Derives .factor n w e
  | product {n u v left right} {sign : Token} (o : Operator) (h_product : o.isSum = false)
      (first : Derives .factor n u left) (h_sign : sign.kind = o.kind)
      (second : Derives .member n v right) :
      Derives .factor n (u ++ sign :: v) (.binary o left right)
  | member {n w e} (primary : Derives .primary n w e) : Derives .member n w e
  | access {n u e} {dot name : Token} (base : Derives .member n u e) (h_dot : dot.kind = .dot)
      (h_name : name.kind = .identifier) :
      Derives .member n (u ++ [dot, name]) (.member e name.text)
  | identifier {n} {name : Token} (h_name : name.kind = .identifier) :
      Derives .primary n [name] (.identifier name.text)
  | number {n} {digits : Token} {value : Int64} (h_digits : digits.kind = .number)
      (h_value : Numeral.int64? digits.text = some value) :
      Derives .primary n [digits] (.literal (.number value))
  | string {n} {text : Token} (h_text : text.kind = .string) :
      Derives .primary n [text] (.literal (.string text.text))
  | parentheses {n w e} {opening closing : Token} (h_opening : opening.kind = .leftParen)
      (inner : Derives .expression n w e) (h_closing : closing.kind = .rightParen) :
      Derives .primary n (opening :: (w ++ [closing])) e

/-- What derives a statement, its semicolon included. Only a constant has to be given a value;
what is declared without one gets the name `null` for an expression. -/
inductive DerivesStatement (n : Nat) : List Token → Stmt → Prop where
  | declare {w value} {keyword name sign semicolon : Token}
      (h_keyword : keyword.kind = .declaration) (h_name : name.kind = .identifier)
      (h_sign : sign.kind = .equal) (right : Derives .expression n w value)
      (h_semicolon : semicolon.kind = .semicolon) :
      DerivesStatement n (keyword :: name :: sign :: (w ++ [semicolon]))
        (.declare (keyword.text = "const") name.text value)
  | declareNull {keyword name semicolon : Token} (h_keyword : keyword.kind = .declaration)
      (h_variable : keyword.text ≠ "const") (h_name : name.kind = .identifier)
      (h_semicolon : semicolon.kind = .semicolon) :
      DerivesStatement n [keyword, name, semicolon]
        (.declare false name.text (.identifier "null"))
  | print {w value} {keyword opening closing semicolon : Token}
      (h_keyword : keyword.kind = .print) (h_opening : opening.kind = .leftParen)
      (argument : Derives .expression n w value) (h_closing : closing.kind = .rightParen)
      (h_semicolon : semicolon.kind = .semicolon) :
      DerivesStatement n (keyword :: opening :: (w ++ [closing, semicolon])) (.print value)
  | expression {w value} {semicolon : Token} (whole : Derives .expression n w value)
      (h_semicolon : semicolon.kind = .semicolon) :
      DerivesStatement n (w ++ [semicolon]) (.expression value)

/-- **What derives a program:** one statement after the other, each within the given levels. -/
inductive DerivesProgram (n : Nat) : List Token → Program → Prop where
  | nil : DerivesProgram n [] []
  | cons {u v s p} (first : DerivesStatement n u s) (rest : DerivesProgram n v p) :
      DerivesProgram n (u ++ v) (s :: p)

/-! ### More levels -/

/-- **More levels derive more.** -/
theorem Derives.mono {phrase : Phrase} {m n : Nat} {w : List Token} {e : Expr}
    (h : Derives phrase m w e) (le : m ≤ n) : Derives phrase n w e := by
  induction h generalizing n with
  -- an expression has spent a level, so there is one among the more levels to spend
  | expression _ ih =>
    obtain ⟨k, rfl⟩ : ∃ k, n = k + 1 := ⟨n - 1, by omega⟩
    exact .expression (ih (by omega))
  | assign _ h_sign _ ih₁ ih₂ =>
    obtain ⟨k, rfl⟩ : ∃ k, n = k + 1 := ⟨n - 1, by omega⟩
    exact .assign (ih₁ (by omega)) h_sign (ih₂ (by omega))
  | objectOperation _ ih => exact .objectOperation (ih le)
  | comparisonOperation _ ih => exact .comparisonOperation (ih le)
  | openBrace h_brace => exact .openBrace h_brace
  | property _ h_key h_colon _ h_comma ih₁ ih₂ =>
    exact .property (ih₁ le) h_key h_colon (ih₂ le) h_comma
  | closeBrace _ h_brace ih => exact .closeBrace (ih le) h_brace
  | objectMember _ h_dot h_name ih => exact .objectMember (ih le) h_dot h_name
  | comparison _ ih => exact .comparison (ih le)
  | compare c _ h_sign _ ih₁ ih₂ => exact .compare c (ih₁ le) h_sign (ih₂ le)
  | term _ ih => exact .term (ih le)
  | sum o h_sum _ h_sign _ ih₁ ih₂ => exact .sum o h_sum (ih₁ le) h_sign (ih₂ le)
  | factor _ ih => exact .factor (ih le)
  | product o h_product _ h_sign _ ih₁ ih₂ =>
    exact .product o h_product (ih₁ le) h_sign (ih₂ le)
  | member _ ih => exact .member (ih le)
  | access _ h_dot h_name ih => exact .access (ih le) h_dot h_name
  | identifier h_name => exact .identifier h_name
  | number h_digits h_value => exact .number h_digits h_value
  | string h_text => exact .string h_text
  | parentheses h_opening _ h_closing ih => exact .parentheses h_opening (ih le) h_closing

theorem DerivesStatement.mono {m n : Nat} {w : List Token} {s : Stmt}
    (h : DerivesStatement m w s) (le : m ≤ n) : DerivesStatement n w s := by
  cases h with
  | declare h_keyword h_name h_sign right h_semicolon =>
    exact .declare h_keyword h_name h_sign (right.mono le) h_semicolon
  | declareNull h_keyword h_variable h_name h_semicolon =>
    exact .declareNull h_keyword h_variable h_name h_semicolon
  | print h_keyword h_opening argument h_closing h_semicolon =>
    exact .print h_keyword h_opening (argument.mono le) h_closing h_semicolon
  | expression whole h_semicolon => exact .expression (whole.mono le) h_semicolon

theorem DerivesProgram.mono {m n : Nat} {w : List Token} {p : Program}
    (h : DerivesProgram m w p) (le : m ≤ n) : DerivesProgram n w p := by
  induction h with
  | nil => exact .nil
  | cons first _ ih => exact .cons (first.mono le) ih

/-- Two programs one after the other are one program. -/
theorem DerivesProgram.append {n : Nat} {u v : List Token} {p q : Program}
    (h : DerivesProgram n u p) (h' : DerivesProgram n v q) :
    DerivesProgram n (u ++ v) (p ++ q) := by
  induction h with
  | nil => exact h'
  | cons first _ ih =>
    rw [List.append_assoc, List.cons_append]
    exact .cons first ih

/-- One statement more behind a program. -/
theorem DerivesProgram.concat {n : Nat} {u v : List Token} {p : Program} {s : Stmt}
    (h : DerivesProgram n u p) (h_s : DerivesStatement n v s) :
    DerivesProgram n (u ++ v) (p ++ [s]) := by
  have h_one : DerivesProgram n (v ++ []) [s] := .cons h_s .nil
  rw [List.append_nil] at h_one
  exact h.append h_one

/-! ### Words

Derivations never look at spans. Two lists of tokens with the same words are cut at the same
places, and what one of them derives the other one derives. -/

/-- Tokens with the words of one token and then others start with a token of that word. -/
private theorem words_cons {ts v : List Token} {t : Token}
    (h : ts.map Token.word = (t :: v).map Token.word) :
    ∃ t' v', ts = t' :: v' ∧ t'.kind = t.kind ∧ t'.text = t.text ∧
      v'.map Token.word = v.map Token.word := by
  rw [List.map_cons] at h
  obtain ⟨t', v', rfl, h_head, h_tail⟩ := List.map_eq_cons_iff.1 h
  exact ⟨t', v', rfl, congrArg Word.kind h_head, congrArg Word.text h_head, h_tail⟩

/-- Tokens with the words of two lists in a row are two such lists in a row. -/
private theorem words_append {ts u v : List Token}
    (h : ts.map Token.word = (u ++ v).map Token.word) :
    ∃ u' v', ts = u' ++ v' ∧ u'.map Token.word = u.map Token.word ∧
      v'.map Token.word = v.map Token.word := by
  rw [List.map_append] at h
  exact List.map_eq_append_iff.1 h

private theorem words_nil {ts : List Token} (h : ts.map Token.word = [].map Token.word) :
    ts = [] :=
  List.map_eq_nil_iff.1 h

/-- Tokens with the word of one token are one token. -/
private theorem words_singleton {ts : List Token} {t : Token}
    (h : ts.map Token.word = [t].map Token.word) :
    ∃ t', ts = [t'] ∧ t'.kind = t.kind ∧ t'.text = t.text := by
  obtain ⟨t', v', rfl, h_kind, h_text, h_v⟩ := words_cons h
  obtain rfl := words_nil h_v
  exact ⟨t', rfl, h_kind, h_text⟩

/-- Tokens with the words of two operands and a sign between them are such tokens themselves. -/
private theorem words_around {ts u v : List Token} {sign : Token}
    (h : ts.map Token.word = (u ++ sign :: v).map Token.word) :
    ∃ u' sign' v', ts = u' ++ sign' :: v' ∧ u'.map Token.word = u.map Token.word ∧
      sign'.kind = sign.kind ∧ v'.map Token.word = v.map Token.word := by
  obtain ⟨u', rest, rfl, h_u, h_rest⟩ := words_append h
  obtain ⟨sign', v', rfl, h_kind, -, h_v⟩ := words_cons h_rest
  exact ⟨u', sign', v', rfl, h_u, h_kind, h_v⟩

/-- Tokens with the words of a base and a member name are such tokens themselves. -/
private theorem words_access {ts u : List Token} {dot name : Token}
    (h : ts.map Token.word = (u ++ [dot, name]).map Token.word) :
    ∃ u' dot' name', ts = u' ++ [dot', name'] ∧ u'.map Token.word = u.map Token.word ∧
      dot'.kind = dot.kind ∧ name'.kind = name.kind ∧ name'.text = name.text := by
  obtain ⟨u', dot', v', rfl, h_u, h_dot, h_v⟩ := words_around h
  obtain ⟨name', rfl, h_name, h_text⟩ := words_singleton h_v
  exact ⟨u', dot', name', rfl, h_u, h_dot, h_name, h_text⟩

/-- **Tokens with the same words derive the same.** -/
theorem Derives.of_words {phrase : Phrase} {n : Nat} {w w' : List Token} {e : Expr}
    (h : Derives phrase n w e) (same : w'.map Token.word = w.map Token.word) :
    Derives phrase n w' e := by
  -- the other tokens are cut where these are, which leaves equal words for the smaller phrases
  induction h generalizing w' with
  | expression _ ih => exact .expression (ih same)
  | assign _ h_sign _ ih₁ ih₂ =>
    obtain ⟨u', sign', v', rfl, h_u, h_kind, h_v⟩ := words_around same
    exact .assign (ih₁ h_u) (h_kind.trans h_sign) (ih₂ h_v)
  | objectOperation _ ih => exact .objectOperation (ih same)
  | comparisonOperation _ ih => exact .comparisonOperation (ih same)
  | openBrace h_brace =>
    obtain ⟨brace', rfl, h_kind, -⟩ := words_singleton same
    exact .openBrace (h_kind.trans h_brace)
  | property _ h_key h_colon _ h_comma ih₁ ih₂ =>
    obtain ⟨u', v', rfl, h_u, same⟩ := words_append same
    obtain ⟨key', v', rfl, h_kind₁, h_text, same⟩ := words_cons same
    obtain ⟨colon', v', rfl, h_kind₂, -, same⟩ := words_cons same
    obtain ⟨v', x', rfl, h_v, same⟩ := words_append same
    obtain ⟨comma', rfl, h_kind₃, -⟩ := words_singleton same
    -- the text of the key is in the tree, so it has to be the other key's text
    rw [← h_text]
    exact .property (ih₁ h_u) (h_kind₁.trans h_key) (h_kind₂.trans h_colon) (ih₂ h_v)
      (h_kind₃.trans h_comma)
  | closeBrace _ h_brace ih =>
    obtain ⟨u', v', rfl, h_u, same⟩ := words_append same
    obtain ⟨brace', rfl, h_kind, -⟩ := words_singleton same
    exact .closeBrace (ih h_u) (h_kind.trans h_brace)
  | objectMember _ h_dot h_name ih =>
    obtain ⟨u', dot', name', rfl, h_u, h_kind₁, h_kind₂, h_text⟩ := words_access same
    rw [← h_text]
    exact .objectMember (ih h_u) (h_kind₁.trans h_dot) (h_kind₂.trans h_name)
  | comparison _ ih => exact .comparison (ih same)
  | compare c _ h_sign _ ih₁ ih₂ =>
    obtain ⟨u', sign', v', rfl, h_u, h_kind, h_v⟩ := words_around same
    exact .compare c (ih₁ h_u) (h_kind.trans h_sign) (ih₂ h_v)
  | term _ ih => exact .term (ih same)
  | sum o h_sum _ h_sign _ ih₁ ih₂ =>
    obtain ⟨u', sign', v', rfl, h_u, h_kind, h_v⟩ := words_around same
    exact .sum o h_sum (ih₁ h_u) (h_kind.trans h_sign) (ih₂ h_v)
  | factor _ ih => exact .factor (ih same)
  | product o h_product _ h_sign _ ih₁ ih₂ =>
    obtain ⟨u', sign', v', rfl, h_u, h_kind, h_v⟩ := words_around same
    exact .product o h_product (ih₁ h_u) (h_kind.trans h_sign) (ih₂ h_v)
  | member _ ih => exact .member (ih same)
  | access _ h_dot h_name ih =>
    obtain ⟨u', dot', name', rfl, h_u, h_kind₁, h_kind₂, h_text⟩ := words_access same
    rw [← h_text]
    exact .access (ih h_u) (h_kind₁.trans h_dot) (h_kind₂.trans h_name)
  | identifier h_name =>
    obtain ⟨name', rfl, h_kind, h_text⟩ := words_singleton same
    rw [← h_text]
    exact .identifier (h_kind.trans h_name)
  | number h_digits h_value =>
    obtain ⟨digits', rfl, h_kind, h_text⟩ := words_singleton same
    exact .number (h_kind.trans h_digits) (by rw [h_text, h_value])
  | string h_text =>
    obtain ⟨text', rfl, h_kind, h_text'⟩ := words_singleton same
    rw [← h_text']
    exact .string (h_kind.trans h_text)
  | parentheses h_opening _ h_closing ih =>
    obtain ⟨opening', v', rfl, h_kind₁, -, same⟩ := words_cons same
    obtain ⟨w', v', rfl, h_w, same⟩ := words_append same
    obtain ⟨closing', rfl, h_kind₂, -⟩ := words_singleton same
    exact .parentheses (h_kind₁.trans h_opening) (ih h_w) (h_kind₂.trans h_closing)

theorem DerivesStatement.of_words {n : Nat} {w w' : List Token} {s : Stmt}
    (h : DerivesStatement n w s) (same : w'.map Token.word = w.map Token.word) :
    DerivesStatement n w' s := by
  -- of a keyword the text counts as well, since it tells a constant from a variable
  cases h with
  | declare h_keyword h_name h_sign right h_semicolon =>
    obtain ⟨keyword', v', rfl, h_kind₁, h_text₁, same⟩ := words_cons same
    obtain ⟨name', v', rfl, h_kind₂, h_text₂, same⟩ := words_cons same
    obtain ⟨sign', v', rfl, h_kind₃, -, same⟩ := words_cons same
    obtain ⟨w', v', rfl, h_w, same⟩ := words_append same
    obtain ⟨semicolon', rfl, h_kind₄, -⟩ := words_singleton same
    rw [← h_text₁, ← h_text₂]
    exact .declare (h_kind₁.trans h_keyword) (h_kind₂.trans h_name) (h_kind₃.trans h_sign)
      (right.of_words h_w) (h_kind₄.trans h_semicolon)
  | declareNull h_keyword h_variable h_name h_semicolon =>
    obtain ⟨keyword', v', rfl, h_kind₁, h_text₁, same⟩ := words_cons same
    obtain ⟨name', v', rfl, h_kind₂, h_text₂, same⟩ := words_cons same
    obtain ⟨semicolon', rfl, h_kind₃, -⟩ := words_singleton same
    rw [← h_text₂]
    exact .declareNull (h_kind₁.trans h_keyword) (h_text₁ ▸ h_variable)
      (h_kind₂.trans h_name) (h_kind₃.trans h_semicolon)
  | print h_keyword h_opening argument h_closing h_semicolon =>
    obtain ⟨keyword', v', rfl, h_kind₁, -, same⟩ := words_cons same
    obtain ⟨opening', v', rfl, h_kind₂, -, same⟩ := words_cons same
    obtain ⟨w', v', rfl, h_w, same⟩ := words_append same
    obtain ⟨closing', v', rfl, h_kind₃, -, same⟩ := words_cons same
    obtain ⟨semicolon', rfl, h_kind₄, -⟩ := words_singleton same
    exact .print (h_kind₁.trans h_keyword) (h_kind₂.trans h_opening) (argument.of_words h_w)
      (h_kind₃.trans h_closing) (h_kind₄.trans h_semicolon)
  | expression whole h_semicolon =>
    obtain ⟨w', v', rfl, h_w, same⟩ := words_append same
    obtain ⟨semicolon', rfl, h_kind, -⟩ := words_singleton same
    exact .expression (whole.of_words h_w) (h_kind.trans h_semicolon)

theorem DerivesProgram.of_words {n : Nat} {w w' : List Token} {p : Program}
    (h : DerivesProgram n w p) (same : w'.map Token.word = w.map Token.word) :
    DerivesProgram n w' p := by
  induction h generalizing w' with
  | nil =>
    obtain rfl := words_nil same
    exact .nil
  | cons first _ ih =>
    obtain ⟨u', v', rfl, h_u, h_v⟩ := words_append same
    exact .cons (first.of_words h_u) (ih h_v)

end Grammar

end ScriptLang
