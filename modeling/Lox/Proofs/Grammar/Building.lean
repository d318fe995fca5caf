import Lox.Proofs.Grammar.Numbering

namespace Lox

open Numbered Stock

namespace Builders

open Builder
open Reader hiding collect commaList chain orElse

structure GoAlong (outer : Builders) (inner : Readers) : Prop where
  expression : Builds zero outer.expression inner.expression (Shows Expr.tree)
  ternary : Builds zero outer.ternary inner.ternary (Shows Expr.tree)
  equality : Builds zero outer.equality inner.equality (Shows Expr.tree)
  comparison : Builds zero outer.comparison inner.comparison (Shows Expr.tree)
  sum : Builds zero outer.sum inner.sum (Shows Expr.tree)
  product : Builds zero outer.product inner.product (Shows Expr.tree)
  sign : Builds zero outer.sign inner.sign (Shows Expr.tree)
  statement : ∀ b, Builds zero (outer.statement b) (inner.statement b) (Shows Stmt.tree)
  declaration : ∀ b, Builds zero (outer.declaration b) (inner.declaration b) (Shows Stmt.tree)

variable {outer : Builders} {inner : Readers}

lemma builds_declarations (h : outer.GoAlong inner) (stop : Cursor → Bool) (inLoop : Bool) :
    Builds zero (collect stop (outer.declaration inLoop))
      (Reader.collect stop (inner.declaration inLoop)) (ShowsList Stmt.tree) :=
  builds_collect .nil (fun _ _ _ _ _ _ hx hxs => hx.cons hxs) (h.declaration inLoop)

lemma builds_block (h : outer.GoAlong inner) (inLoop : Bool) :
    Builds zero (outer.buildBlock inLoop) (inner.readBlock inLoop) (ShowsList Stmt.tree) :=
  (builds_declarations h _ inLoop).start fun _ _ _ hbody => builds_read fun _ => builds_pure hbody

lemma builds_params (paren : Token) :
    Builds zero (buildParams paren) (Readers.readParams paren) fun t params S =>
      Marks [.tree t] [.ofParams (some params)] S := by
  rw [← bind_pure (Readers.readParams paren)]
  exact builds_read fun params => builds_last fun n => .node (.tokens params.names)

lemma builds_body (h : outer.GoAlong inner) (brace head : Token) (params : Option Params) :
    Builds zero (outer.buildBody brace) (inner.readBody brace head params) fun t f S =>
      ∃ body, f = .mk head params brace.line body ∧
        Marks [.tree t] [.tree (.plain "body" brace.line (stmtLeaves body))] S := by
  refine (builds_block h false).start fun ts body S hbody => builds_last fun n => ⟨body, rfl, ?_⟩
  rw [stmtLeaves_eq]
  exact .node hbody

lemma builds_lambda (h : outer.GoAlong inner) (keyword : Token) :
    Builds zero (outer.buildLambda keyword) (inner.readLambda keyword) (Shows Expr.tree) := by
  refine builds_read fun paren => (builds_params paren).start fun ps params S hparams =>
    builds_read fun brace => (builds_body h brace keyword params).bind fun t f T hf =>
      builds_last fun n => ?_
  obtain ⟨body, rfl, hbody⟩ := hf
  exact .node (.token (hparams.cons hbody))

lemma builds_declaredParams (what : Declared) :
    Builds zero (buildDeclaredParams what)
      (sees .leftBrace >>= fun b =>
        if decide (what = .function) || !b then
          expect (.declaredParen what) >>= fun paren => some <$> Readers.readParams paren
        else pure none)
      fun o params S => Marks [.ofOption o] [.ofParams params] S := by
  refine builds_read fun b => ?_
  split
  · exact builds_read fun paren => (builds_params paren).map fun _ _ _ hparams => hparams
  · exact builds_pure .absent

lemma builds_function (h : outer.GoAlong inner) (what : Declared) :
    Builds zero (outer.buildFunction what) (inner.readFunction what)
      (Shows (Function.tree "function")) := by
  rw [Readers.readFunction_eq]
  refine builds_read fun name => ?_
  rw [← bind_assoc]
  refine (builds_declaredParams what).start fun o params S hparams => builds_read fun brace => ?_
  rw [← bind_pure (inner.readBody brace name params)]
  refine (builds_body h brace name params).bind fun t f T hf => builds_last fun n => ?_
  obtain ⟨body, rfl, hbody⟩ := hf
  exact .node (.token (hparams.cons hbody))

lemma builds_items (h : outer.GoAlong inner) (closing : Kind) (tooMany : Option Problem) :
    Builds zero (outer.buildItems closing tooMany)
      (sees closing >>= fun b => if b then pure [] else Reader.commaList tooMany inner.ternary)
      (ShowsList Expr.tree) := by
  refine builds_read fun b => ?_
  split
  · exact builds_pure .nil
  · exact builds_commaList .nil (fun _ _ _ _ _ _ hx hxs => hx.cons hxs) h.ternary

lemma builds_list (h : outer.GoAlong inner) (bracket : Token) :
    Builds zero (outer.buildList bracket) (inner.readList bracket) (Shows Expr.tree) := by
  rw [Readers.readList_eq, ← bind_assoc]
  refine (builds_items h .rightBracket none).start fun ts es S hes => builds_read fun _ =>
    builds_last fun n => ?_
  rw [Shows, Expr.tree, exprLeaves_eq]
  exact .node (.token hes)

lemma builds_grouping (h : outer.GoAlong inner) (paren : Token) :
    Builds zero (outer.buildGrouping paren) (inner.readGrouping paren) (Shows Expr.tree) :=
  h.expression.start fun _ _ _ he => builds_read fun _ => builds_last fun _ =>
    .node (.token he)

lemma builds_super (keyword : Token) :
    Builds zero (buildSuper keyword) (Readers.readSuper keyword) (Shows Expr.tree) :=
  builds_read fun _ => builds_read fun _ => builds_last fun _ =>
    .node (.token (.token .nil))

lemma builds_orphan (op : Token) {operand : Builder Numbered} {operand' : Reader Expr}
    (h : Builds zero operand operand' (Shows Expr.tree)) :
    Builds zero (buildOrphan op operand) (Readers.readOrphan op operand') (Shows Expr.tree) :=
  builds_read fun _ => h.start fun _ _ _ _ => builds_read fun _ => builds_last fun _ =>
    (Marks.node (.token .nil)).mono fun i => by simp [zero]

lemma builds_primary (h : outer.GoAlong inner) :
    Builds zero outer.buildPrimary inner.readPrimary (Shows Expr.tree) := by
  refine builds_read fun t => ?_
  cases t.literal? with
  | some value =>
    exact builds_read fun _ => builds_last fun _ => .node (.token (.value .nil))
  | none =>
    dsimp only
    cases t.kind
    case thisWord | identifier =>
      exact builds_read fun _ => builds_last fun _ => .node (.token .nil)
    case superWord => exact builds_read fun _ => builds_super t
    case leftParen => exact builds_read fun _ => builds_grouping h t
    case leftBracket => exact builds_read fun _ => builds_list h t
    case bangEqual | equalEqual => exact builds_read fun _ => builds_orphan t h.equality
    case greater | greaterEqual | less | lessEqual =>
      exact builds_read fun _ => builds_orphan t h.comparison
    case plus => exact builds_read fun _ => builds_orphan t h.sum
    case slash | star | percent => exact builds_read fun _ => builds_orphan t h.product
    all_goals exact builds_fail

lemma builds_suffixes (h : outer.GoAlong inner) (bound : Nat) {t : Numbered} {e : Expr}
    {S : Stock} (he : Shows Expr.tree t e S) :
    Builds S (outer.buildSuffixes bound t) (inner.readSuffixes bound e) (Shows Expr.tree) := by
  induction bound generalizing t e S with
  | zero => exact builds_pure he
  | succ bound ih =>
    refine builds_read fun o => ?_
    cases o with
    | some _ =>
      refine (builds_items h .rightParen (some .tooManyArguments)).bind fun ts es T hes =>
        builds_read fun paren => builds_node fun n => builds_node fun n' => ih ?_
      rw [Shows, Expr.tree, exprLeaves_eq]
      refine (Marks.node (he.cons (.token (.node (n := n) hes)))).mono fun i => ?_
      omega
    | none =>
      refine builds_read fun o => ?_
      cases o with
      | some _ =>
        exact builds_read fun name => builds_node fun n =>
          ih (.node (he.cons (.token .nil)))
      | none => exact builds_pure he

lemma builds_call (h : outer.GoAlong inner) :
    Builds zero outer.buildCall inner.readCall (Shows Expr.tree) := by
  refine (builds_primary h).start fun t e S he => builds_read fun b => ?_
  split
  · exact builds_get fun c _ => builds_suffixes h c.rest.length he
  · exact builds_pure he

lemma builds_sign (h : outer.GoAlong inner) :
    Builds zero outer.buildSign inner.readSign (Shows Expr.tree) := by
  refine builds_read fun o => ?_
  cases o with
  | some op =>
    exact h.sign.start fun _ _ _ he => builds_last fun _ => .node (.token he)
  | none => exact builds_call h

lemma builds_product (h : outer.GoAlong inner) :
    Builds zero outer.buildProduct inner.readProduct (Shows Expr.tree) :=
  builds_chain (fun _ _ _ => rfl) (builds_sign h)

lemma builds_sum (h : outer.GoAlong inner) :
    Builds zero outer.buildSum inner.readSum (Shows Expr.tree) :=
  builds_chain (fun _ _ _ => rfl) (builds_product h)

lemma builds_comparison (h : outer.GoAlong inner) :
    Builds zero outer.buildComparison inner.readComparison (Shows Expr.tree) :=
  builds_chain (fun _ _ _ => rfl) (builds_sum h)

lemma builds_equality (h : outer.GoAlong inner) :
    Builds zero outer.buildEquality inner.readEquality (Shows Expr.tree) :=
  builds_chain (fun _ _ _ => rfl) (builds_comparison h)

lemma builds_and (h : outer.GoAlong inner) :
    Builds zero outer.buildAnd inner.readAnd (Shows Expr.tree) :=
  builds_chain (fun _ _ _ => rfl) (builds_equality h)

lemma builds_or (h : outer.GoAlong inner) :
    Builds zero outer.buildOr inner.readOr (Shows Expr.tree) :=
  builds_chain (fun _ _ _ => rfl) (builds_and h)

theorem builds_finishAssignment (h : outer.GoAlong inner) (equals : Token) {t : Numbered}
    {target : Expr} {S : Stock} (ht : Shows Expr.tree t target S) :
    Builds S (outer.finishAssignment t equals) (inner.finishAssignment target equals)
      (Shows Expr.tree) := by
  refine h.ternary.bind fun u value T hu => ?_
  obtain ⟨n, label, line, ls⟩ := t
  cases target
  case ref name =>
    obtain ⟨rfl, hdepth, hls⟩ := ht.children
    obtain rfl := hls.eq_token
    refine builds_last fun n' => ?_
    rw [Shows, Expr.tree, hdepth]
    refine (Marks.node (.token hu)).mono fun i => ?_
    omega
  case get object name =>
    obtain ⟨rfl, -, hls⟩ := ht.children
    exact builds_last fun n' => .node (hls.append hu)
  case' lambda f => obtain ⟨head, params, line', body⟩ := f
  all_goals
    obtain ⟨rfl, -⟩ := ht.children
    exact builds_read fun _ => builds_pure (ht.mono fun i => Nat.le_add_right (S i) (T i))

lemma builds_assignment (h : outer.GoAlong inner) :
    Builds zero outer.buildAssignment inner.readAssignment (Shows Expr.tree) := by
  refine (builds_or h).start fun t e S he => builds_read fun o => ?_
  cases o with
  | some equals => exact builds_finishAssignment h equals he
  | none => exact builds_pure he

lemma builds_finishConditional (h : outer.GoAlong inner) (mark : Token) {t : Numbered}
    {condition : Expr} {S : Stock} (hc : Shows Expr.tree t condition S) :
    Builds S (outer.finishConditional t mark) (inner.finishConditional condition mark)
      (Shows Expr.tree) := by
  refine h.expression.bind fun _ _ _ hyes => builds_read fun _ => h.ternary.bind fun _ _ _ hno =>
    builds_last fun _ => (Marks.node (hc.cons (.token (hyes.cons hno)))).mono fun i => ?_
  omega

lemma builds_ternary (h : outer.GoAlong inner) :
    Builds zero outer.buildTernary inner.readTernary (Shows Expr.tree) := by
  refine builds_read fun o => ?_
  cases o with
  | some keyword => exact builds_lambda h keyword
  | none =>
    refine (builds_assignment h).start fun t e S he => builds_read fun o => ?_
    cases o with
    | some mark => exact builds_finishConditional h mark he
    | none => exact builds_pure he

lemma builds_expression (h : outer.GoAlong inner) :
    Builds zero outer.buildExpression inner.readExpression (Shows Expr.tree) :=
  builds_chain (fun _ _ _ => rfl) (builds_ternary h)

lemma builds_var (h : outer.GoAlong inner) :
    Builds zero outer.buildVar inner.readVar (Shows Stmt.tree) := by
  rw [Readers.readVar_eq]
  refine builds_read fun name => builds_afterToken (fun _ => rfl) rfl (builds_expression h)
    fun o init S hinit => builds_read fun _ => builds_last fun n => ?_
  cases hinit with
  | none => exact (Marks.node (.token .absent)).mono fun i => by simp [zero]
  | some he => exact (Marks.node (.token he)).mono fun i => by simp [zero]

lemma builds_expressionStmt (h : outer.GoAlong inner) :
    Builds zero outer.buildExpressionStmt inner.readExpressionStmt (Shows Stmt.tree) :=
  builds_read fun _ => (builds_expression h).start fun _ _ _ he => builds_read fun _ =>
    builds_last fun _ => .node he

lemma builds_print (h : outer.GoAlong inner) (keyword : Token) :
    Builds zero (outer.buildPrint keyword) (inner.readPrint keyword) (Shows Stmt.tree) :=
  (builds_expression h).start fun _ _ _ he => builds_read fun _ => builds_last fun _ =>
    .node (.token he)

lemma builds_return (h : outer.GoAlong inner) (keyword : Token) :
    Builds zero (outer.buildReturn keyword) (inner.readReturn keyword) (Shows Stmt.tree) := by
  rw [Readers.readReturn_eq]
  refine builds_beforeToken (builds_expression h) fun o value S hvalue => builds_read fun _ =>
    builds_last fun n => ?_
  cases hvalue with
  | none => exact (Marks.node (.token .absent)).mono fun i => by simp [zero]
  | some he => exact (Marks.node (.token he)).mono fun i => by simp [zero]

lemma builds_break (inLoop : Bool) (keyword : Token) :
    Builds zero (buildBreak inLoop keyword) (Readers.readBreak inLoop keyword)
      (Shows Stmt.tree) := by
  have hend : Builds zero
      (liftM (expect .breakEnd) >>= fun _ => node "break_stmt" keyword.line [.token keyword])
      (expect .breakEnd >>= fun _ => pure (.breakLoop keyword)) (Shows Stmt.tree) :=
    builds_read fun _ => builds_last fun _ => .node (.token .nil)
  cases inLoop with
  | false => exact builds_read fun _ => hend
  | true => exact hend

lemma builds_if (h : outer.GoAlong inner) (inLoop : Bool) (keyword : Token) :
    Builds zero (outer.buildIf inLoop keyword) (inner.readIf inLoop keyword)
      (Shows Stmt.tree) := by
  rw [Readers.readIf_eq]
  refine builds_read fun _ => (builds_expression h).start fun t c S hc => builds_read fun _ =>
    (h.statement inLoop).bind fun u yes T hyes =>
    builds_afterToken (fun _ => rfl) rfl (h.statement inLoop) fun o no U hno =>
    builds_last fun n => ?_
  cases hno with
  | none => exact (Marks.node (.token (hc.cons (hyes.cons .absent)))).mono fun i => by omega
  | some hs => exact (Marks.node (.token (hc.cons (hyes.cons hs)))).mono fun i => by omega

lemma builds_while (h : outer.GoAlong inner) (keyword : Token) :
    Builds zero (outer.buildWhile keyword) (inner.readWhile keyword) (Shows Stmt.tree) :=
  builds_read fun _ => (builds_expression h).start fun _ _ _ hc => builds_read fun _ =>
    (h.statement true).bind fun _ _ _ hbody => builds_last fun _ =>
    .node (.token (hc.cons hbody))

lemma builds_forInit (h : outer.GoAlong inner) :
    Builds zero outer.buildForInit inner.readForInit (ShowsOption Stmt.tree) := by
  refine builds_read fun o => ?_
  cases o with
  | some _ => exact builds_pure .none
  | none =>
    refine builds_read fun o => ?_
    cases o with
    | some _ => exact (builds_var h).map fun _ _ _ => .some
    | none => exact (builds_expressionStmt h).map fun _ _ _ => .some

section

variable (keyword : Token) {t : Numbered} {o : Option Numbered} {s : Stmt} {S T : Stock}

lemma builds_addStep {step : Option Expr} (hs : Shows Stmt.tree t s S)
    (hstep : ShowsOption Expr.tree o step T) :
    Builds (fun i => S i + T i) (addStep keyword t o) (pure ()) fun u _ U =>
      Shows Stmt.tree u
        (step.elim s fun step => .block keyword.line [s, .expression keyword.line step]) U := by
  cases hstep with
  | none => exact builds_pure (hs.mono fun i => Nat.le_add_right (S i) _)
  | some he =>
    refine builds_node fun n => builds_last fun n' => ?_
    exact (Marks.node (hs.cons (.node he))).mono fun i => by omega

lemma builds_conditionOrTrue {condition : Option Expr}
    (hc : ShowsOption Expr.tree o condition S) :
    Builds S (conditionOrTrue keyword o) (pure ()) fun u _ U =>
      Shows Expr.tree u (condition.getD (Readers.alwaysTrue keyword)) U := by
  cases hc with
  | none => exact builds_last fun _ => .node (.token (.value .nil))
  | some he => exact builds_pure he

lemma builds_addInit {init : Option Stmt} (hs : Shows Stmt.tree t s S)
    (hinit : ShowsOption Stmt.tree o init T) :
    Builds (fun i => T i + S i) (addInit keyword t o) (pure ()) fun u _ U =>
      Shows Stmt.tree u (init.elim s fun first => .block keyword.line [first, s]) U := by
  cases hinit with
  | none => exact builds_pure (hs.mono fun i => Nat.le_add_left (S i) _)
  | some hfirst => exact builds_last fun _ => .node (hfirst.cons hs)

end

lemma expandFor_eq (keyword : Token) (init : Option Stmt) (condition step : Option Expr)
    (body : Stmt) :
    let loop := Stmt.whileLoop keyword (condition.getD (Readers.alwaysTrue keyword))
      (step.elim body fun step => .block keyword.line [body, .expression keyword.line step])
    Readers.expandFor keyword init condition step body =
      init.elim loop fun first => .block keyword.line [first, loop] := by
  cases init <;> cases step <;> rfl

theorem builds_expandFor (keyword : Token) {oi oc os : Option Numbered} {t : Numbered}
    {init : Option Stmt} {condition step : Option Expr} {body : Stmt} {S T U V : Stock}
    (hinit : ShowsOption Stmt.tree oi init S) (hcondition : ShowsOption Expr.tree oc condition T)
    (hstep : ShowsOption Expr.tree os step U) (hbody : Shows Stmt.tree t body V) :
    Builds (fun i => S i + T i + U i + V i) (expandFor keyword oi oc os t)
      (pure (Readers.expandFor keyword init condition step body)) (Shows Stmt.tree) := by
  rw [expandFor_eq]
  refine (builds_addStep keyword hbody hstep).aside (F := fun i => S i + T i)
    (fun i => by omega) fun b W hb => ?_
  refine (builds_conditionOrTrue keyword hcondition).aside (F := fun i => S i + W i)
    (fun i => by omega) fun c X hc => builds_node fun n => ?_
  rw [← bind_pure (addInit _ _ _)]
  have hloop : Shows Stmt.tree _ (.whileLoop keyword _ _) fun i => X i + W i + one n i :=
    .node (.token (hc.cons hb))
  exact (builds_addInit keyword hloop hinit).aside (F := zero)
    (fun i => by simp only [zero]; omega) fun l Y hl => builds_pure
      (hl.mono fun i => Nat.le_add_left (Y i) _)

lemma builds_for (h : outer.GoAlong inner) (keyword : Token) :
    Builds zero (outer.buildFor keyword) (inner.readFor keyword) (Shows Stmt.tree) := by
  rw [Readers.readFor_eq]
  refine builds_read fun _ => (builds_forInit h).start fun oi init S hinit =>
    builds_beforeToken (builds_expression h) fun oc condition T hc => builds_read fun _ =>
    builds_beforeToken (builds_expression h) fun os step U hs => builds_read fun _ => ?_
  exact (h.statement true).bind fun t body V hbody => builds_expandFor keyword hinit hc hs hbody

lemma builds_statement (h : outer.GoAlong inner) (inLoop : Bool) :
    Builds zero (outer.buildStatement inLoop) (inner.readStatement inLoop)
      (Shows Stmt.tree) := by
  refine builds_read fun t => ?_
  cases t.kind
  case breakWord => exact builds_read fun _ => builds_break inLoop t
  case forWord => exact builds_read fun _ => builds_for h t
  case ifWord => exact builds_read fun _ => builds_if h inLoop t
  case leftBrace =>
    refine builds_read fun _ => (builds_block h inLoop).start fun _ body _ hbody =>
      builds_last fun _ => ?_
    rw [Shows, Stmt.tree, stmtLeaves_eq]
    exact .node hbody
  case printWord => exact builds_read fun _ => builds_print h t
  case returnWord => exact builds_read fun _ => builds_return h t
  case whileWord => exact builds_read fun _ => builds_while h t
  all_goals exact builds_expressionStmt h

def ShowsMember (m : Bool × Numbered) (m' : Bool × Function) (S : Stock) : Prop :=
  m.1 = m'.1 ∧ Shows (Function.tree "function") m.2 m'.2 S

lemma builds_member (h : outer.GoAlong inner) :
    Builds zero outer.buildMember inner.readMember ShowsMember := by
  refine builds_read fun o => ?_
  cases o with
  | some _ =>
    exact (builds_function h .staticMethod).start fun _ _ _ hf => builds_pure ⟨rfl, hf⟩
  | none => exact (builds_function h .method).start fun _ _ _ hf => builds_pure ⟨rfl, hf⟩

lemma builds_superclass :
    Builds zero buildSuperclass Readers.readSuperclass
      (ShowsOption fun parent => .ofReference "variable" parent []) := by
  refine builds_read fun o => ?_
  cases o with
  | some _ =>
    exact builds_read fun name => builds_node fun n => builds_pure (.some (.node (.token .nil)))
  | none => exact builds_pure .none

def ShowsMembers (ms : List (Bool × Numbered)) (ms' : List (Bool × Function)) (S : Stock) : Prop :=
  ∃ T U, Marks (leavesOf false ms) (memberLeaves (membersOf false ms')) T ∧
    Marks (leavesOf true ms) (memberLeaves (membersOf true ms')) U ∧ ∀ i, T i + U i ≤ S i

lemma ShowsMembers.cons {m : Bool × Numbered} {m' : Bool × Function}
    {ms : List (Bool × Numbered)} {ms' : List (Bool × Function)} {S T : Stock}
    (h : ShowsMember m m' S) (hs : ShowsMembers ms ms' T) :
    ShowsMembers (m :: ms) (m' :: ms') fun i => S i + T i := by
  obtain ⟨isStatic, t⟩ := m
  obtain ⟨_, f⟩ := m'
  obtain ⟨rfl, hf⟩ := h
  obtain ⟨U, V, hmethods, hstatics, hle⟩ := hs
  cases isStatic with
  | false =>
    refine ⟨_, V, hf.cons hmethods, hstatics, fun i => ?_⟩
    have hi := hle i
    dsimp only
    omega
  | true =>
    refine ⟨U, _, hmethods, hf.cons hstatics, fun i => ?_⟩
    have hi := hle i
    dsimp only
    omega

lemma builds_class (h : outer.GoAlong inner) :
    Builds zero outer.buildClass inner.readClass (Shows Stmt.tree) := by
  refine builds_read fun name => builds_superclass.start fun o parent S hparent =>
    builds_read fun brace => (builds_collect (R := ShowsMembers) ⟨zero, zero, .nil, .nil, ?_⟩
      (fun _ _ _ _ _ _ => .cons) (builds_member h)).bind fun ms ms' T hms => builds_read fun _ =>
    builds_node fun n => builds_node fun n' => builds_last fun n'' => ?_
  · simp [zero]
  obtain ⟨U, V, hmethods, hstatics, hle⟩ := hms
  rw [Shows, ← membersOf_false]
  have hlists : Marks [.tree (.node n "methods" brace.line _),
      .tree (.node n' "static_methods" brace.line _)] _ _ :=
    Marks.cons (.node hmethods) (.node hstatics)
  cases hparent with
  | none =>
    refine (Marks.node (.token (Marks.absent.cons hlists))).mono fun i => ?_
    have hi := hle i
    simp only [zero]
    omega
  | some hp =>
    refine (Marks.node (.token (hp.cons hlists))).mono fun i => ?_
    have hi := hle i
    omega

lemma builds_declared (h : outer.GoAlong inner) (inLoop : Bool) :
    Builds zero (outer.buildDeclared inLoop) (inner.readDeclared inLoop) (Shows Stmt.tree) := by
  refine builds_read fun o => ?_
  cases o with
  | some _ => exact builds_class h
  | none =>
    refine builds_get fun c _ => ?_
    dsimp only
    split
    · rw [← bind_pure (outer.buildFunction .function)]
      exact builds_read fun _ => (builds_function h .function).start fun _ _ _ hf => builds_pure hf
    · refine builds_read fun o => ?_
      cases o with
      | some _ => exact builds_var h
      | none => exact builds_statement h inLoop

lemma builds_recover : Builds zero recover Readers.recover (Shows Stmt.tree) :=
  builds_read fun _ => builds_read fun _ => builds_last fun _ => .node (.token .nil)

lemma GoAlong.within (h : outer.GoAlong inner) :
    (within outer).GoAlong (Readers.within inner) where
  expression := builds_expression h
  ternary := builds_ternary h
  equality := builds_equality h
  comparison := builds_comparison h
  sum := builds_sum h
  product := builds_product h
  sign := builds_sign h
  statement := builds_statement h
  declaration b := builds_orElse (builds_declared h b) builds_recover

lemma builds_noExpression {β : Type} {tree : β → Tree} :
    Builds zero noExpression Readers.noExpression (Shows tree) :=
  builds_read fun _ => builds_fail

lemma goAlong_empty : empty.GoAlong Readers.empty where
  expression := builds_noExpression
  ternary := builds_noExpression
  equality := builds_noExpression
  comparison := builds_noExpression
  sum := builds_noExpression
  product := builds_noExpression
  sign := builds_noExpression
  statement _ := builds_noExpression
  declaration _ := builds_noExpression

lemma goAlong_nested (depth : Nat) : (nested depth).GoAlong (Readers.nested depth) := by
  induction depth with
  | zero => exact goAlong_empty
  | succ depth ih => exact ih.within

end Builders

end Lox
