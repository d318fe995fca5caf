import Lox.Proofs.Grammar.Tiered

namespace Lox

open Token (kind_ofKind)

def Expr.IsSpelled (e : Expr) : Prop :=
  ∃ e', e'.lineless = e.lineless ∧ Spells (.expression e.level e') e.tokens

def areSpelled (es : List Expr) : Prop :=
  ∃ es', mapExprs id (fun _ => 0) es' = mapExprs id (fun _ => 0) es ∧
    Spells (.items es') (listTokens es)

def Stmt.IsSpelled (inLoop : Bool) (s : Stmt) : Prop :=
  ∃ s', s'.map id (fun _ => 0) = s.map id (fun _ => 0) ∧
    Spells (.declaration inLoop s') s.tokens ∧
    (s.declares = false → Spells (.statement inLoop s.takesElse s') s.tokens)

def isSpelledBody (inLoop : Bool) (body : List Stmt) : Prop :=
  ∃ body', mapStmts id (fun _ => 0) body' = mapStmts id (fun _ => 0) body ∧
    Spells (.declarations inLoop body') (bodyTokens body)

def Function.IsSpelled (f : Function) : Prop :=
  ∃ params line body, (Function.mk f.head (some params) line body).map id (fun _ => 0) =
      f.map id (fun _ => 0) ∧
    ∃ ts, f.tokens = f.head :: ts ∧ Spells (.rest (some params) line body) ts

lemma Reference.Is.spelled {r : Reference} (h : r.Is .identifier) :
    Spells (.expression .primary (.ref r)) [r.name] := by
  obtain ⟨name, depth⟩ := r
  obtain ⟨hk, rfl⟩ := h
  exact .ref hk

lemma spells_names {ps : List Token} (hne : ps ≠ []) (h : ∀ p ∈ ps, p.kind = .identifier) :
    Spells (.names ps) (Token.listed ps) := by
  induction ps with
  | nil => contradiction
  | cons p more ih =>
    have hp := h p List.mem_cons_self
    cases more with
    | nil => exact .lastName hp
    | cons q more =>
      exact .moreNames hp rfl (ih (by simp) fun r hr => h r (List.mem_cons_of_mem _ hr))

theorem Params.Tiered.spelled {p : Params} (h : p.Tiered) :
    Spells (.parameters ⟨0, p.names⟩) p.tokens := by
  obtain ⟨line, names⟩ := p
  cases names with
  | nil => exact .noParameters (kind_ofKind .leftParen) (kind_ofKind .rightParen)
  | cons name more =>
    exact .parameters (kind_ofKind .leftParen) (kind_ofKind .rightParen) h.1
      (spells_names (by simp) h.2)

lemma Spells.expressions {es : List Expr} {ts : List Token} (h : Spells (.items es) ts)
    (hne : es ≠ []) : Spells (.expressions es) ts := by
  cases h with
  | noItems => contradiction
  | items h => exact h

lemma length_mapExprs (f : Token → Token) (g : Nat → Nat) (es : List Expr) :
    (mapExprs f g es).length = es.length := by
  induction es with
  | nil => rfl
  | cons e more ih => simp [mapExprs, ih]

namespace Expr

lemma IsSpelled.at_level {e : Expr} {level : Level} (h : e.IsSpelled) (hl : level.Admits e) :
    ∃ e', e'.lineless = e.lineless ∧ Spells (.expression level e') e.tokens := by
  obtain ⟨e', heq, hs⟩ := h
  exact ⟨e', heq, hs.loosen hl⟩

lemma IsSpelled.at_comma {e : Expr} (h : e.IsSpelled) :
    ∃ e', e'.lineless = e.lineless ∧ Spells (.expression .comma e') e.tokens :=
  h.at_level (Level.admits_comma e)

end Expr

mutual

lemma Expr.Tiered.spelled : (e : Expr) → e.Tiered → e.IsSpelled
  | .literal _ _, h => ⟨_, rfl, .literal h⟩
  | .ref _, h => ⟨_, rfl, Reference.Is.spelled h⟩
  | .assign target value _, ⟨ht, hl, h⟩ => by
    obtain ⟨value', heq, hs⟩ := (Expr.Tiered.spelled value h).at_level hl
    refine ⟨.assign target value' 0, by simp [Expr.map, heq], ?_⟩
    exact .assign (kind_ofKind .equal) (ht.spelled.loosen (by decide)) hs
  | .get object name, ⟨⟨hl, h⟩, hn⟩ => by
    obtain ⟨object', heq, hs⟩ := (Expr.Tiered.spelled object h).at_level hl
    exact ⟨.get object' name, by simp [Expr.map, heq], .get rfl hn hs⟩
  | .set object name value _, ⟨⟨hl, h⟩, hn, hl', h'⟩ => by
    obtain ⟨object', heq, hs⟩ := (Expr.Tiered.spelled object h).at_level hl
    obtain ⟨value', heq', hs'⟩ := (Expr.Tiered.spelled value h').at_level hl'
    refine ⟨.set object' name value' 0, by simp [Expr.map, heq, heq'], ?_⟩
    have hget : Spells (.expression .or (.get object' name))
        (object.tokens ++ [.ofKind .dot, name]) := (Spells.get rfl hn hs).loosen (by decide)
    have hset := Spells.set (kind_ofKind .equal) hget hs'
    rw [List.append_assoc] at hset
    exact hset
  | .conditional condition mark yes no, ⟨⟨hl, h⟩, hm, hy, hl', hn⟩ => by
    obtain ⟨condition', heq, hs⟩ := (Expr.Tiered.spelled condition h).at_level hl
    obtain ⟨yes', heqy, hsy⟩ := (Expr.Tiered.spelled yes hy).at_comma
    obtain ⟨no', heqn, hsn⟩ := (Expr.Tiered.spelled no hn).at_level hl'
    refine ⟨.conditional condition' mark yes' no', by simp [Expr.map, heq, heqy, heqn], ?_⟩
    exact .conditional hm rfl (hs.leavesMark (by decide)) (hs.loosen (by decide)) hsy hsn
  | .lambda function, ⟨hk, hp, h⟩ => by
    obtain ⟨params, line, body, heq, ts, htokens, hs⟩ := Function.Tiered.spelled function hp h
    refine ⟨.lambda (.mk function.head (some params) line body), by simp [Expr.map, heq], ?_⟩
    rw [Expr.tokens, htokens]
    exact .lambda hk hs
  | .comma left op right, ⟨hop, h, hl', h'⟩ => by
    obtain ⟨left', heq, hs⟩ := (Expr.Tiered.spelled left h).at_comma
    obtain ⟨right', heq', hs'⟩ := (Expr.Tiered.spelled right h').at_level hl'
    refine ⟨.comma left' op right', by simp [Expr.map, heq, heq'], ?_⟩
    have hmem : op.kind ∈ Level.comma.ops := by simp [hop, Level.ops]
    exact .join hmem hs hs'
  | .binary left op right, ⟨hop, ⟨hl, h⟩, hl', h'⟩ => by
    obtain ⟨left', heq, hs⟩ := (Expr.Tiered.spelled left h).at_level hl
    obtain ⟨right', heq', hs'⟩ := (Expr.Tiered.spelled right h').at_level hl'
    refine ⟨.binary left' op right', by simp [Expr.map, heq, heq'], ?_⟩
    have hjoin := Spells.join hop hs hs'
    rw [Level.join_ofOperator] at hjoin
    exact hjoin
  | .logical left op right, ⟨hsides, h'⟩ => by
    have hor : op.kind = .orWord ∨ op.kind = .andWord := hsides.imp And.left And.left
    rcases hsides with ⟨hop, ⟨hl, h⟩, hl'⟩ | ⟨hop, ⟨hl, h⟩, hl'⟩
    · obtain ⟨left', heq, hs⟩ := (Expr.Tiered.spelled left h).at_level hl
      obtain ⟨right', heq', hs'⟩ := (Expr.Tiered.spelled right h').at_level hl'
      refine ⟨.logical left' op right', by simp [Expr.map, heq, heq'], ?_⟩
      simp only [Expr.level, hop, if_true]
      have hmem : op.kind ∈ Level.or.ops := by simp [hop, Level.ops]
      exact .join hmem hs hs'
    · obtain ⟨left', heq, hs⟩ := (Expr.Tiered.spelled left h).at_level hl
      obtain ⟨right', heq', hs'⟩ := (Expr.Tiered.spelled right h').at_level hl'
      refine ⟨.logical left' op right', by simp [Expr.map, heq, heq'], ?_⟩
      simp only [Expr.level, hop, reduceCtorEq, if_false]
      have hmem : op.kind ∈ Level.and.ops := by simp [hop, Level.ops]
      exact .join hmem hs hs'
  | .unary op operand, ⟨hop, hl, h⟩ => by
    obtain ⟨operand', heq, hs⟩ := (Expr.Tiered.spelled operand h).at_level hl
    exact ⟨.unary op operand', by simp [Expr.map, heq], .sign hop hs⟩
  | .call callee paren arguments, ⟨⟨hl, h⟩, hp, hlength, ha⟩ => by
    obtain ⟨callee', heq, hs⟩ := (Expr.Tiered.spelled callee h).at_level hl
    obtain ⟨arguments', heq', hs'⟩ := spelled_items arguments ha
    have hlength' : arguments'.length = arguments.length := by
      have := congrArg List.length heq'
      simpa only [length_mapExprs] using this
    refine ⟨.call callee' paren arguments', by simp [Expr.map, heq, heq'], ?_⟩
    exact .call (kind_ofKind .leftParen) hp (hlength' ▸ hlength) hs hs'
  | .this target, h => by
    obtain ⟨name, depth⟩ := target
    obtain ⟨hk, rfl⟩ := h
    exact ⟨_, rfl, .this hk⟩
  | .super target method, ⟨h, hm⟩ => by
    obtain ⟨name, depth⟩ := target
    obtain ⟨hk, rfl⟩ := h
    exact ⟨_, rfl, .super hk rfl hm⟩
  | .grouping paren inner, ⟨hk, h⟩ => by
    obtain ⟨inner', heq, hs⟩ := (Expr.Tiered.spelled inner h).at_comma
    exact ⟨.grouping paren inner', by simp [Expr.map, heq], .grouping hk rfl hs⟩
  | .list bracket elements, ⟨hk, h⟩ => by
    obtain ⟨elements', heq, hs⟩ := spelled_items elements h
    exact ⟨.list bracket elements', by simp [Expr.map, heq], .list hk rfl hs⟩

lemma spelled_items : (es : List Expr) → tieredItems es → areSpelled es
  | [], _ => ⟨[], rfl, .noItems⟩
  | e :: more, ⟨⟨hl, h⟩, hmore⟩ => by
    obtain ⟨e', heq, hs⟩ := (Expr.Tiered.spelled e h).at_level hl
    obtain ⟨more', heq', hs'⟩ := spelled_items more hmore
    refine ⟨e' :: more', by simp [mapExprs, heq, heq'], .items ?_⟩
    cases more with
    | nil =>
      have hlength := congrArg List.length heq'
      rw [length_mapExprs, length_mapExprs] at hlength
      obtain rfl := List.length_eq_zero_iff.mp hlength
      exact .lastExpression hs
    | cons next rest =>
      have hne : more' ≠ [] := by
        rintro rfl
        simp [mapExprs] at heq'
      exact .moreExpressions rfl hs (hs'.expressions hne)

lemma Stmt.Tiered.spelled (inLoop : Bool) : (s : Stmt) → s.Tiered inLoop → s.IsSpelled inLoop
  | .expression line value, h => by
    obtain ⟨value', heq, hs⟩ := (Expr.Tiered.spelled value h).at_comma
    obtain ⟨first, more, hfirst⟩ := List.exists_cons_of_ne_nil (hs.ne_nil Nat.one_pos)
    rw [hfirst] at hs
    have hstmt : Spells (.statement inLoop false (.expression first.line value'))
        (Stmt.expression line value).tokens := by
      rw [Stmt.tokens, hfirst]
      exact .expression (.expressionStatement rfl hs)
    exact ⟨_, by simp [Stmt.map, heq], .statement hstmt, fun _ => hstmt⟩
  | .print keyword value, h => by
    obtain ⟨hk, h⟩ := h
    obtain ⟨value', heq, hs⟩ := (Expr.Tiered.spelled value h).at_comma
    have hstmt := Spells.print (b := inLoop) hk (kind_ofKind .semicolon) hs
    exact ⟨.print keyword value', by simp [Stmt.map, heq], .statement hstmt, fun _ => hstmt⟩
  | .var name none, h =>
    ⟨.var name none, rfl, .variableDecl rfl (.uninitialized h rfl), by simp [Stmt.declares]⟩
  | .var name (some init), h => by
    obtain ⟨hn, h⟩ := h
    obtain ⟨init', heq, hs⟩ := (Expr.Tiered.spelled init h).at_comma
    refine ⟨.var name (some init'), by simp [Stmt.map, heq], ?_, by simp [Stmt.declares]⟩
    exact .variableDecl rfl (.initialized hn rfl rfl hs)
  | .block _ body, h => by
    obtain ⟨body', heq, hs⟩ := spelled_body inLoop body h
    have hstmt := Spells.block (kind_ofKind .leftBrace) (kind_ofKind .rightBrace) hs
    exact ⟨.block 0 body', by simp [Stmt.map, heq], .statement hstmt, fun _ => hstmt⟩
  | .ifElse keyword condition yes none, h => by
    obtain ⟨hk, hc, hdecl, hy⟩ := h
    obtain ⟨condition', heq, hs⟩ := (Expr.Tiered.spelled condition hc).at_comma
    obtain ⟨yes', heqy, -, hsy⟩ := Stmt.Tiered.spelled inLoop yes hy
    have hstmt := Spells.ifOnly hk (kind_ofKind .leftParen) (kind_ofKind .rightParen) hs (hsy hdecl)
    exact ⟨.ifElse keyword condition' yes' none, by simp [Stmt.map, heq, heqy],
      .statement hstmt, fun _ => hstmt⟩
  | .ifElse keyword condition yes (some no), h => by
    obtain ⟨hk, hc, ⟨hdecl, htakes, hy⟩, hdecl', hn⟩ := h
    obtain ⟨condition', heq, hs⟩ := (Expr.Tiered.spelled condition hc).at_comma
    obtain ⟨yes', heqy, -, hsy⟩ := Stmt.Tiered.spelled inLoop yes hy
    obtain ⟨no', heqn, -, hsn⟩ := Stmt.Tiered.spelled inLoop no hn
    have hsy := hsy hdecl
    rw [htakes] at hsy
    have hstmt := Spells.ifElse hk (kind_ofKind .leftParen) (kind_ofKind .rightParen)
      (kind_ofKind .elseWord) hs hsy (hsn hdecl')
    exact ⟨.ifElse keyword condition' yes' (some no'), by simp [Stmt.map, heq, heqy, heqn],
      .statement hstmt, fun _ => hstmt⟩
  | .whileLoop keyword condition body, h => by
    obtain ⟨hk, hc, hdecl, hb⟩ := h
    obtain ⟨condition', heq, hs⟩ := (Expr.Tiered.spelled condition hc).at_comma
    obtain ⟨body', heqb, -, hsb⟩ := Stmt.Tiered.spelled true body hb
    have hstmt := Spells.whileLoop (b := inLoop) hk (kind_ofKind .leftParen)
      (kind_ofKind .rightParen) hs (hsb hdecl)
    exact ⟨.whileLoop keyword condition' body', by simp [Stmt.map, heq, heqb],
      .statement hstmt, fun _ => hstmt⟩
  | .breakLoop keyword, h => by
    obtain ⟨hk, hloop⟩ := h
    subst hloop
    have hstmt := Spells.breakLoop hk (kind_ofKind .semicolon)
    exact ⟨.breakLoop keyword, rfl, .statement hstmt, fun _ => hstmt⟩
  | .returnValue keyword none, hk => by
    have hstmt := Spells.returnValue (b := inLoop) hk (kind_ofKind .semicolon) .absent
    exact ⟨.returnValue keyword none, rfl, .statement hstmt, fun _ => hstmt⟩
  | .returnValue keyword (some value), h => by
    obtain ⟨hk, h⟩ := h
    obtain ⟨value', heq, hs⟩ := (Expr.Tiered.spelled value h).at_comma
    have hstmt := Spells.returnValue (b := inLoop) hk (kind_ofKind .semicolon) (.present hs)
    exact ⟨.returnValue keyword (some value'), by simp [Stmt.map, heq], .statement hstmt,
      fun _ => hstmt⟩
  | .function function, h => by
    obtain ⟨hk, hp, h⟩ := h
    obtain ⟨params, line, body, heq, ts, htokens, hs⟩ := Function.Tiered.spelled function hp h
    refine ⟨.function (.mk function.head (some params) line body), by simp [Stmt.map, heq], ?_,
      by simp [Stmt.declares]⟩
    rw [Stmt.tokens, htokens]
    exact .function rfl hk hs
  | .classDecl _ _ _ _ _, h => h.elim
  | .invalid _, h => h.elim

lemma spelled_body (inLoop : Bool) :
    (body : List Stmt) → tieredBody inLoop body → isSpelledBody inLoop body
  | [], _ => ⟨[], rfl, .noDeclarations⟩
  | s :: more, ⟨h, hmore⟩ => by
    obtain ⟨s', heq, hs, -⟩ := Stmt.Tiered.spelled inLoop s h
    obtain ⟨more', heq', hs'⟩ := spelled_body inLoop more hmore
    exact ⟨s' :: more', by simp [mapStmts, heq, heq'], .declarations hs hs'⟩

lemma Function.Tiered.spelled : (f : Function) → f.params.isSome → f.Tiered → f.IsSpelled
  | .mk head params _ body, hp, ⟨hparams, h⟩ => by
    obtain ⟨ps, rfl⟩ := Option.isSome_iff_exists.mp hp
    obtain ⟨body', heq, hs⟩ := spelled_body false body h
    refine ⟨⟨0, ps.names⟩, 0, body', by simp [Function.map, Function.head, Params.map, heq],
      restTokens (some ps) body, rfl, ?_⟩
    exact .rest (hparams ps rfl).spelled
      (.getter (kind_ofKind .leftBrace) (kind_ofKind .rightBrace) hs)

end

end Lox
