import ScriptLang.Proofs.Program.Shown
import ScriptLang.Proofs.Script.RoundTrip

/-!
# What is shown of a program tells which it is

The form in which programs are shown is no script that reads as the same program, but its characters
still divide into tokens: between any two words that would merge there is a blank, and whatever a
string contains stays between its quotes. So the text of a program determines its words, and these
determine the program, as long as its names and literals can be spelled, as is the case for all
programs that were read.

* `wording_render` — the text of an expression says the words that the expression is shown by.
* `Stmt.render_injective`, `Program.render_injective` — texts that are the same show the same.
* `render_unambiguous` — this is so for whatever was read.
-/

namespace ScriptLang

open Lexeme

/-! ### Borders -/

/-- **A border:** nothing stands there, or a character that goes on with no lexeme. -/
def IsBorder (cs : List Char) : Prop := ∀ c ∈ cs.head?, ∀ kind, continues kind c = false

theorem isBorder_blank {c : Char} (h : isBlank c = true) (cs : List Char) : IsBorder (c :: cs) := by
  rintro _ ⟨⟩ kind
  exact not_continues_of_blank kind h

/-- A symbol character but the equals sign goes on with no lexeme. -/
theorem isBorder_symbol {c : Char} (h : isSymbolCharacter c = true) (h_equals : c ≠ '=')
    (cs : List Char) : IsBorder (c :: cs) := by
  rintro _ ⟨⟩ kind
  exact not_continues kind (not_word_of_symbol h) (not_digit_of_symbol h) h_equals

/-! ### Words one by one -/

@[simp] theorem Wording.after_after (r : Wording) (us vs : List Word) :
    (r.after us).after vs = r.after (vs ++ us) := by
  unfold Wording.after
  rw [List.append_assoc]

/-- A symbol in front of a text, unless the text goes on with it. -/
theorem wording_symbol {kind : TokenKind} (h : kind ∈ TokenKind.symbols) {rest : List Char}
    (h_rest : ∀ c ∈ rest.head?, continues kind c = false) :
    wording (kind.describe.toList ++ rest) = (wording rest).after [Word.symbol kind] := by
  rw [← spelling_symbol h]
  exact wording_spelling ((fits_symbol h).2 rfl) h_rest

/-- A symbol that nothing goes on with. -/
theorem wording_sign (kind : TokenKind) (c : Char) (h : kind.describe.toList = [c])
    (h_kind : kind ∈ TokenKind.symbols) (h_closed : kind ∉ [.equal, .less, .greater])
    (rest : List Char) : wording (c :: rest) = (wording rest).after [Word.symbol kind] := by
  rw [← wording_symbol h_kind, h, List.singleton_append]
  intro d _
  have h_symbols : ∀ k ∈ TokenKind.symbols, ¬isWordKind k = true := by decide
  have h_number : kind ≠ .number := by
    rintro rfl
    exact absurd h_kind (by decide)
  unfold continues
  rw [if_neg (h_symbols kind h_kind), if_neg h_number, if_neg h_closed]

/-- Whatever word is spelled out in front of a border is read. -/
theorem wording_border {kind : TokenKind} {text : String} (h : Fits kind text) {rest : List Char}
    (h_rest : IsBorder rest) :
    wording (spelling kind text ++ rest) = (wording rest).after [⟨kind, text⟩] :=
  wording_spelling h fun c h_c => h_rest c h_c kind

/-- Names and keywords are read as they are. -/
theorem wording_word {kind : TokenKind} {text : String} (h : Fits kind text)
    (h_kind : isWordKind kind = true) {rest : List Char} (h_rest : IsBorder rest) :
    wording (text.toList ++ rest) = (wording rest).after [⟨kind, text⟩] := by
  rw [← spelling_word h_kind]
  exact wording_border h h_rest

/-! ### Expressions -/

private theorem wording_name {name : String} (h : IsName name) {rest : List Char}
    (h_rest : IsBorder rest) :
    wording (name.toList ++ rest) = (wording rest).after [⟨.identifier, name⟩] := by
  have h_fits : Fits .identifier name := h
  exact wording_word h_fits rfl h_rest

private theorem wording_literal {v : Literal} (h : v.WellSpelled) {rest : List Char}
    (h_rest : IsBorder rest) :
    wording (v.render.toList ++ rest) = (wording rest).after [v.word] := by
  have h_spelling : v.render.toList = spelling v.word.kind v.word.text := by
    cases v with
    | number n => rfl
    | boolean b => exact h.elim
    | string s =>
      rw [Literal.render, String.toList_append, String.toList_append]
      rfl
  rw [h_spelling]
  exact wording_border (Literal.fits_word h) h_rest

/-- The signs of operations are set off by blanks. -/
private theorem wording_operator {kind : TokenKind} (h : kind ∈ TokenKind.symbols) (rest : List Char) :
    wording (kind.describe.toList ++ ' ' :: rest) = (wording rest).after [Word.symbol kind] := by
  rw [wording_symbol h (fun c h_c => isBorder_blank rfl rest c h_c kind), wording_blank rfl]

private theorem comparator_symbol (c : Comparator) :
    c.symbol = c.kind.describe ∧ c.kind ∈ TokenKind.symbols := by
  cases c <;> exact ⟨rfl, by decide⟩

private theorem operator_symbol (o : Operator) :
    o.symbol = o.kind.describe ∧ o.kind ∈ TokenKind.symbols := by
  cases o <;> exact ⟨rfl, by decide⟩

/-- A text says the words that an expression is shown by, in front of whatever border. -/
private def Says (text : String) (ws : List Word) : Prop :=
  ∀ rest, IsBorder rest → wording (text.toList ++ rest) = (wording rest).after ws

/-- An operation between its parentheses, with the sign in front of the operands. -/
private theorem wording_operation {kind : TokenKind} (h : kind ∈ TokenKind.symbols)
    {left right : String} {us vs : List Word} (h_left : Says left us) (h_right : Says right vs) :
    Says ("(" ++ kind.describe ++ " " ++ left ++ " " ++ right ++ ")")
      (Word.parens (Word.symbol kind :: (us ++ vs))) := by
  intro rest _
  have h_text : ("(" ++ kind.describe ++ " " ++ left ++ " " ++ right ++ ")").toList ++ rest =
      '(' :: (kind.describe.toList ++ ' ' :: (left.toList ++ ' ' ::
        (right.toList ++ ')' :: rest))) := by
    simp
  rw [h_text, wording_sign .leftParen '(' rfl (by decide) (by decide), wording_operator h,
    h_left _ (isBorder_blank rfl _), wording_blank rfl,
    h_right _ (isBorder_symbol rfl (by decide) rest),
    wording_sign .rightParen ')' rfl (by decide) (by decide)]
  simp only [Wording.after_after, Word.parens, List.append_assoc, List.cons_append,
    List.nil_append]

private theorem wording_assign {target value : String} {us vs : List Word}
    (h_target : Says target us) (h_value : Says value vs) :
    Says ("(" ++ target ++ " = " ++ value ++ ")")
      (Word.parens (us ++ Word.symbol .equal :: vs)) := by
  intro rest _
  have h_text : ("(" ++ target ++ " = " ++ value ++ ")").toList ++ rest =
      '(' :: (target.toList ++ ' ' :: (TokenKind.equal.describe.toList ++ ' ' ::
        (value.toList ++ ')' :: rest))) := by
    simp [TokenKind.describe]
  rw [h_text, wording_sign .leftParen '(' rfl (by decide) (by decide),
    h_target _ (isBorder_blank rfl _), wording_blank rfl, wording_operator (by decide),
    h_value _ (isBorder_symbol rfl (by decide) rest),
    wording_sign .rightParen ')' rfl (by decide) (by decide)]
  simp only [Wording.after_after, Word.parens, List.append_assoc, List.cons_append,
    List.nil_append]

private theorem wording_member {base property : String} {us : List Word} (h_base : Says base us)
    (h_property : IsName property) :
    Says (base ++ "." ++ property) (us ++ [Word.symbol .dot, ⟨.identifier, property⟩]) := by
  intro rest h_rest
  have h_text : (base ++ "." ++ property).toList ++ rest =
      base.toList ++ '.' :: (property.toList ++ rest) := by
    simp
  rw [h_text, h_base _ (isBorder_symbol rfl (by decide) _),
    wording_sign .dot '.' rfl (by decide) (by decide), wording_name h_property h_rest]
  simp only [Wording.after_after, List.cons_append, List.nil_append]

/-- The properties of an object literal end in a comma and a blank, so anything may follow. -/
private theorem wording_properties {properties : List (String × Expr)}
    (keys : ∀ p ∈ properties, IsName p.1)
    (values : ∀ p ∈ properties, Says p.2.render p.2.shown) (rest : List Char) :
    wording ((Expr.renderProperties properties).toList ++ rest) =
      (wording rest).after (Expr.shownProperties properties) := by
  induction properties with
  | nil => rfl
  | cons p properties ih =>
    obtain ⟨key, value⟩ := p
    obtain ⟨h_key, keys⟩ := List.forall_mem_cons.1 keys
    obtain ⟨h_value, values⟩ := List.forall_mem_cons.1 values
    have h_text : (Expr.renderProperties ((key, value) :: properties)).toList ++ rest =
        key.toList ++ ':' :: ' ' :: (value.render.toList ++ ',' :: ' ' ::
          ((Expr.renderProperties properties).toList ++ rest)) := by
      simp [Expr.renderProperties]
    rw [h_text, wording_name h_key (isBorder_symbol rfl (by decide) _),
      wording_sign .colon ':' rfl (by decide) (by decide), wording_blank rfl,
      h_value _ (isBorder_symbol rfl (by decide) _),
      wording_sign .comma ',' rfl (by decide) (by decide), wording_blank rfl,
      ih keys values]
    simp only [Wording.after_after, Expr.shownProperties, Word.property, List.append_assoc,
      List.cons_append, List.nil_append]

private theorem wording_object {properties : List (String × Expr)}
    (keys : ∀ p ∈ properties, IsName p.1)
    (values : ∀ p ∈ properties, Says p.2.render p.2.shown) :
    Says (Expr.object properties).render (Expr.object properties).shown := by
  intro rest _
  have h_text : (Expr.object properties).render.toList ++ rest =
      '\x7b' :: ' ' :: ((Expr.renderProperties properties).toList ++ '\x7d' :: rest) := by
    simp [Expr.render]
  rw [h_text, wording_sign .leftBrace '\x7b' rfl (by decide) (by decide), wording_blank rfl,
    wording_properties keys values,
    wording_sign .rightBrace '\x7d' rfl (by decide) (by decide)]
  simp only [Wording.after_after, Expr.shown, List.cons_append, List.nil_append]

/-- **The text of an expression says the words that it is shown by.** -/
theorem wording_render {e : Expr} (h : e.WellSpelled) {rest : List Char} (h_rest : IsBorder rest) :
    wording (e.render.toList ++ rest) = (wording rest).after e.shown := by
  have h_says : Says e.render e.shown := by
    clear h_rest
    induction h with
    | identifier h_name => exact fun rest h_rest => wording_name h_name h_rest
    | literal h_v => exact fun rest h_rest => wording_literal h_v h_rest
    | assign _ _ ih_target ih_value => exact wording_assign ih_target ih_value
    | object keys _ ih => exact wording_object keys ih
    | member _ h_property ih => exact wording_member ih h_property
    | @compare c _ _ _ _ ih_left ih_right =>
      obtain ⟨h_symbol, h_kind⟩ := comparator_symbol c
      rw [Expr.render, h_symbol]
      exact wording_operation h_kind ih_left ih_right
    | @binary o _ _ _ _ ih_left ih_right =>
      obtain ⟨h_symbol, h_kind⟩ := operator_symbol o
      rw [Expr.render, h_symbol]
      exact wording_operation h_kind ih_left ih_right
  exact h_says rest h_rest

/-! ### Statements and programs -/

/-- **The text of a statement says the words that it is shown by,** and ends with its semicolon. -/
theorem Stmt.wording_render {s : Stmt} (h : s.WellSpelled) (rest : List Char) :
    wording (s.render.toList ++ rest) = (wording rest).after s.shown := by
  have h_semicolon : IsBorder (';' :: rest) := isBorder_symbol rfl (by decide) rest
  cases s with
  | expression e =>
    have h_text : (expression e).render.toList ++ rest = e.render.toList ++ ';' :: rest := by
      simp [render]
    rw [h_text, ScriptLang.wording_render h h_semicolon,
      wording_sign .semicolon ';' rfl (by decide) (by decide), Wording.after_after]
    rfl
  | declare constant name e =>
    obtain ⟨h_name, h_e⟩ := h
    have h_text : (declare constant name e).render.toList ++ rest =
        (if constant then "const" else "let").toList ++ ' ' :: (name.toList ++ ' ' ::
          (TokenKind.equal.describe.toList ++ ' ' :: (e.render.toList ++ ';' :: rest))) := by
      cases constant <;> simp [render, TokenKind.describe]
    have h_fits : Fits .declaration (if constant then "const" else "let") := by
      cases constant
      · exact .inl rfl
      · exact .inr rfl
    rw [h_text, wording_word h_fits rfl (isBorder_blank rfl _), wording_blank rfl,
      wording_name h_name (isBorder_blank rfl _), wording_blank rfl,
      wording_operator (by decide), ScriptLang.wording_render h_e h_semicolon,
      wording_sign .semicolon ';' rfl (by decide) (by decide)]
    simp only [Wording.after_after, shown, shownBody, List.cons_append, List.nil_append]
  | print e =>
    have h_text : (print e).render.toList ++ rest =
        "print".toList ++ '(' :: (e.render.toList ++ ')' :: ';' :: rest) := by
      simp [render]
    have h_fits : Fits .print "print" := rfl
    rw [h_text, wording_word h_fits rfl (isBorder_symbol rfl (by decide) _),
      wording_sign .leftParen '(' rfl (by decide) (by decide),
      ScriptLang.wording_render h (isBorder_symbol rfl (by decide) _),
      wording_sign .rightParen ')' rfl (by decide) (by decide),
      wording_sign .semicolon ';' rfl (by decide) (by decide)]
    simp only [Wording.after_after, shown, shownBody, Word.parens, List.append_assoc,
      List.cons_append, List.nil_append]

/-- **The text of a program says the words that it is shown by.** -/
theorem Program.wording_render {p : Program} (h : Program.WellSpelled p) :
    wording (Program.render p).toList = ⟨Program.shown p, true⟩ := by
  induction p with
  | nil => exact wording_nil
  | cons s p ih =>
    obtain ⟨h_s, h_p⟩ := List.forall_mem_cons.1 h
    have h_text : (Program.render (s :: p)).toList =
        s.render.toList ++ '\n' :: (Program.render p).toList := by
      simp [Program.render]
    rw [h_text, Stmt.wording_render h_s, wording_blank rfl, ih h_p]
    rfl

/-- **Statements that are shown alike are the same.** -/
theorem Stmt.render_injective {s t : Stmt} (h : s.WellSpelled) (h' : t.WellSpelled)
    (h_eq : s.render = t.render) : s = t := by
  have h_wording := Stmt.wording_render h []
  rw [h_eq, Stmt.wording_render h' [], wording_nil] at h_wording
  -- both texts say their words and nothing behind them
  have h_shown : t.shown ++ [] = s.shown ++ [] := congrArg Wording.words h_wording
  have h_body : t.shownBody = s.shownBody :=
    List.append_cancel_right (List.append_cancel_right h_shown)
  exact Stmt.eq_of_shownBody h h' h_body.symm

/-- **Programs that are shown alike are the same.** -/
theorem Program.render_injective {p q : Program} (h : Program.WellSpelled p)
    (h' : Program.WellSpelled q) (h_eq : Program.render p = Program.render q) : p = q := by
  refine Program.eq_of_shown h h' ?_
  have h_wording := Program.wording_render h
  rw [h_eq, Program.wording_render h'] at h_wording
  exact (congrArg Wording.words h_wording).symm

/-- **What is shown of a program tells which it is.** Two scripts that are read as programs with the
same text are read as the same program, and a statement that occurs in the one has the text of a
statement that occurs in the other only if it is the same statement. -/
theorem render_unambiguous {source source' : String} {p q : Program}
    (h : readProgram source = .ok p) (h' : readProgram source' = .ok q) :
    (Program.render p = Program.render q → p = q) ∧
      ∀ s ∈ p, ∀ t ∈ q, s.render = t.render → s = t := by
  have h_p : Program.WellSpelled p := (wellSpelled_of_readProgram h).1
  have h_q : Program.WellSpelled q := (wellSpelled_of_readProgram h').1
  refine ⟨Program.render_injective h_p h_q, fun s h_s t h_t => ?_⟩
  exact Stmt.render_injective (h_p s h_s) (h_q t h_t)

/-- A string that looks like the end of a statement and the beginning of the next. -/
theorem render_unambiguous_of_string :
    (readProgram "x=\"1);\n(y = \";" = .ok [.expression (.assign (.identifier "x")
        (.literal (.string "1);\n(y = ")))] ∧
      readProgram "x=\"1\"; y=\"\";" = .ok [.expression (.assign (.identifier "x")
        (.literal (.string "1"))), .expression (.assign (.identifier "y")
        (.literal (.string "")))]) ∧
      Program.render [.expression (.assign (.identifier "x")
          (.literal (.string "1);\n(y = ")))] ≠
        Program.render [.expression (.assign (.identifier "x") (.literal (.string "1"))),
          .expression (.assign (.identifier "y") (.literal (.string "")))] := by
  have h_read : ∀ {source : String} {p : Program}, (readProgram source).toOption = some p →
      readProgram source = .ok p := by
    intro source p h
    cases h_source : readProgram source with
    | error e =>
      rw [h_source] at h
      cases h
    | ok p' =>
      rw [h_source] at h
      exact congrArg Except.ok (Option.some.inj h)
  have h_one : readProgram "x=\"1);\n(y = \";" = .ok [.expression (.assign (.identifier "x")
      (.literal (.string "1);\n(y = ")))] := h_read (by decide +kernel)
  have h_two : readProgram "x=\"1\"; y=\"\";" = .ok [.expression (.assign (.identifier "x")
      (.literal (.string "1"))), .expression (.assign (.identifier "y") (.literal (.string "")))] :=
    h_read (by decide +kernel)
  refine ⟨⟨h_one, h_two⟩, fun h_render => ?_⟩
  have h_same := (render_unambiguous h_one h_two).1 h_render
  cases congrArg List.length h_same

end ScriptLang
