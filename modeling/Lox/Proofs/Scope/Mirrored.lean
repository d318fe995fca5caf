import Lox.Proofs.Alike.Lockstep
import Lox.Proofs.Scope.Errors
import Lox.Proofs.Scope.Mirror
import Lox.Proofs.Syntax.Shape

namespace Lox

def Function.leaves : Function → List Leaf
  | .mk head params line body =>
    [.token head, .ofParams params, .tree (.plain "body" line (stmtLeaves body))]

lemma Function.tree_eq (label : String) (f : Function) :
    f.tree label = .plain label f.head.line f.leaves := by
  obtain ⟨head, params, line, body⟩ := f
  rfl

def Leaf.ofParent : Option Reference → Leaf
  | some target => .tree (.ofReference "variable" target [])
  | none => .absent

namespace Visitor

open Resolver

lemma visit_plain {label : String} (h : rule? label = none) (line : Nat) (children : List Leaf) :
    visit (.plain label line children) = do
      return .plain label line (← visitChildren children) := by
  rw [Tree.plain, visit.eq_def]
  simp only [h]
  rfl

lemma visit_variable (target : Reference) :
    visit (.ofReference "variable" target []) = do
      return .node "variable" target.name.line (← readName target) [.token target.name] := rfl

lemma visit_assign (line : Nat) (depth : Option Nat) (name : Token) (value : Tree) :
    visit (.node "assign" line depth [.token name, .tree value]) = do
      let value ← visit value
      return .node "assign" line (← find ⟨name, depth⟩ false) [.token name, .tree value] := by
  rw [visit]
  simp only [rule?, visitOperand, bind_assoc, pure_bind]

lemma visit_return (line : Nat) (depth : Option Nat) (keyword : Token) (value : Tree) :
    visit (.node "return_stmt" line depth [.token keyword, .tree value]) = do
      checkReturn keyword true
      let value ← visit value
      return .node "return_stmt" line depth [.token keyword, .tree value] := by
  rw [visit]
  simp only [rule?, visitOperand, bind_assoc, pure_bind]

lemma visit_var (line : Nat) (depth : Option Nat) (name : Token) (init : Tree) :
    visit (.node "var_decl" line depth [.token name, .tree init]) = do
      declare name true
      let init ← visit init
      define name
      return .node "var_decl" line depth [.token name, .tree init] := by
  rw [visit]
  simp only [rule?, visitOperand, bind_assoc, pure_bind]

lemma visit_function (line : Nat) (f : Function) :
    visit (.plain "function" line f.leaves) = do
      declareReady f.head true
      return .plain "function" line (← visitFunction "function" .named f.leaves) := by
  obtain ⟨head, params, line, body⟩ := f
  rfl

lemma routine_memberSetting (isStatic : Bool) (f : Function) :
    (memberSetting isStatic f.leaves).routine = memberRoutine isStatic f := by
  obtain ⟨head, params, line, body⟩ := f
  cases isStatic with
  | true => simp [memberSetting, Function.leaves, memberRoutine, Setting.routine]
  | false =>
    by_cases hname : head.lexeme = "init"
    · cases params <;> simp [memberSetting, Function.leaves, memberRoutine, Setting.routine,
        Function.name, Function.head, Function.params, Leaf.ofParams, isPresent, hname]
    · simp [memberSetting, Function.leaves, memberRoutine, Setting.routine, Function.name,
        Function.head, hname]

lemma visitStatements_eq (label : String) (body : List Stmt) :
    visitStatements label (stmtLeaves body) = visitChildren (stmtLeaves body) := by
  induction body with
  | nil => rfl
  | cons s more ih =>
    rw [stmtLeaves, visitStatements, visitChildren, ih]
    simp only [visitOperand, bind_assoc, pure_bind]

lemma parameters_ofParams (params : Option Params) :
    parameters (.ofParams params) = pure ((params.map Params.names).getD []) := by
  have htokens (names : List Token) : tokens "params" (names.map .token) = pure names := by
    induction names with
    | nil => rfl
    | cons name more ih => rw [List.map_cons, tokens, ih, pure_bind]
  cases params with
  | none => rfl
  | some ps => exact htokens ps.names

section

variable {α β : Type} {S : List Scope → List Scope → Prop}

lemma Mirrors.done [IsPreorder _ S] {f : β → α} {x : α} {y : β} (h : f y = x) :
    Mirrors S f (pure x) (fun _ => pure y) := h ▸ .pure y

theorem Mirrors.use [IsPreorder _ S] {f : β → α} {look : Visitor (Option Nat)}
    {walk : Surroundings → Resolver Reference} {target : Reference}
    (h : Mirrors S Reference.depth look walk)
    (hname : ∀ around σ, ((walk around).result σ).name = target.name) {g : Option Nat → α}
    {k : Reference → β} (hk : ∀ r, r.name = target.name → f (k r) = g r.depth) :
    Mirrors S f (do return g (← look)) (fun around => do return k (← walk around)) := by
  refine h.bind fun r hr => ?_
  obtain ⟨around, σ, rfl⟩ := hr
  exact .done (hk _ (hname around σ))

end

lemma head_resolveFunction {routine : Routine} {f g : Function}
    (h : ∃ around σ, g = (resolveFunction around routine f).result σ) : g.head = f.head := by
  obtain ⟨around, σ, rfl⟩ := h
  obtain ⟨head, params, line, body⟩ := f
  rfl

lemma mirrors_parent (target : Reference) :
    Mirrors Steady Leaf.ofParent
      (do return Leaf.tree (← visit (.ofReference "variable" target [])))
      (fun _ => do return some (← Resolver.readName target)) := by
  rw [visit_variable]
  simp only [bind_assoc, pure_bind]
  refine (mirrors_readName target).use (fun _ => name_readName target) fun r hr => ?_
  rw [Leaf.ofParent, Tree.ofReference, hr]

theorem gives_superclass (label : String) (name : Token) (superclass : Option Reference)
    (v : Progress) :
    Gives Steady v (visitSuperclass label name (.ofParent superclass))
      (.ofParent ((resolveSuperclass name superclass).result v.scopes))
      ((resolveSuperclass name superclass).after v.scopes) v.setting
      (if superclass.isSome then .subclass else v.membership) := by
  cases superclass with
  | none => exact Gives.pure v _
  | some parent =>
    have hread (w : Progress) : Gives Steady w
        (do
          setMembership .subclass
          return Leaf.tree (← visit (.ofReference "variable" parent [])))
        (.ofParent ((some <$> Resolver.readName parent).result w.scopes))
        ((some <$> Resolver.readName parent).after w.scopes) w.setting .subclass :=
      (gives_setMembership w .subclass).bind fun u hu => (mirrors_parent parent).goesOn hu
    rw [Leaf.ofParent, Tree.ofReference, visitSuperclass, resolveSuperclass]
    simp only [headToken, pure_bind]
    split
    · refine (gives_report v parent.name .inheritsItself).bind fun w hw => ?_
      have hrest := hread w
      rwa [hw.scopes, hw.setting] at hrest
    · exact hread v

def visitBothMembers (methods statics : List Leaf) : Visitor (List Leaf × List Leaf) := do
  let methods ← visitMembers "class_decl" false methods
  return (methods, ← visitMembers "class_decl" true statics)

lemma visit_class (name : Token) (superclass : Option Reference) (line : Nat)
    (methods statics : List Function) :
    visit (Stmt.classDecl name superclass line methods statics).tree = inClass do
      declareReady name true
      let superclass' ← visitSuperclass "class_decl" name (.ofParent superclass)
      let both ← inMemberScopes superclass.isSome
        (visitBothMembers (memberLeaves methods) (memberLeaves statics))
      return .plain "class_decl" name.line [.token name, superclass',
        .tree (.plain "methods" line both.1), .tree (.plain "static_methods" line both.2)] := by
  cases superclass <;> rfl

lemma mirrors_class {methods statics : List Function}
    (h : Mirrors Steady (Prod.map memberLeaves memberLeaves)
      (visitBothMembers (memberLeaves methods) (memberLeaves statics))
      (bothMembers · methods statics)) (name : Token) (superclass : Option Reference) (line : Nat) :
    Mirrors Grown Stmt.tree (visit (Stmt.classDecl name superclass line methods statics).tree)
      (resolveStmt · (.classDecl name superclass line methods statics)) := by
  intro v
  obtain ⟨hafter, hresult⟩ := @resolveStmt_classDecl v.scopes v.around name superclass line methods
    statics superclass.isSome (isSome_resolveSuperclass name superclass _)
  rw [visit_class, hafter, hresult]
  refine Gives.inClass (m := if superclass.isSome then .subclass else .rootClass)
    ((mirrors_declareReady name true _).bind fun w hw => ?_)
  have hsuper := gives_superclass "class_decl" name superclass w
  rw [hw.scopes, hw.setting, hw.membership] at hsuper
  refine hsuper.grown.bind fun u hu => ?_
  exact ((h.grown.inMemberScopes superclass.isSome).grown.goesOn hu).bind fun t ht => ht.pure _

lemma mirrors_infix {label : String} (h : rule? label = none) {left right : Expr} {op : Token}
    (hleft : Mirrors Steady Expr.tree (visit left.tree) (resolveExpr · left))
    (hright : Mirrors Steady Expr.tree (visit right.tree) (resolveExpr · right))
    {f : Expr → Token → Expr → Expr}
    (hf : ∀ l r, (f l op r).tree = .ofInfix label l.tree op r.tree) :
    Mirrors Steady Expr.tree (visit (.ofInfix label left.tree op right.tree))
      (fun around => do
        let left ← resolveExpr around left
        return f left op (← resolveExpr around right)) := by
  rw [Tree.ofInfix, visit_plain h]
  simp only [visitChildren, pure_bind, bind_assoc]
  exact hleft.bind fun left _ => hright.bind fun right _ => .done (hf left right)

mutual

lemma mirrors_expr : (e : Expr) → Mirrors Steady Expr.tree (visit e.tree) (resolveExpr · e)
  | .literal token value => by
    rw [Expr.tree, visit_plain rfl]
    simp only [visitChildren, pure_bind]
    exact .pure (Expr.literal token value)
  | .ref target =>
    (mirrors_readName target).use (fun _ => name_readName target) fun r hr => by
      rw [Expr.tree, Tree.ofReference, hr]
  | .assign target value line => by
    rw [Expr.tree, visit_assign]
    exact (mirrors_expr value).bind fun value _ =>
      (mirrors_find target false).use (fun _ => name_find target false) fun r hr => by
        rw [Expr.tree, hr]
  | .get object name => by
    rw [Expr.tree, visit_plain rfl]
    simp only [visitChildren, pure_bind, bind_assoc]
    exact (mirrors_expr object).bind fun object _ => .pure (Expr.get object name)
  | .set object name value line => by
    rw [Expr.tree, visit_plain rfl]
    simp only [visitChildren, pure_bind, bind_assoc]
    exact (mirrors_expr object).bind fun object _ => (mirrors_expr value).bind fun value _ =>
      .pure (Expr.set object name value line)
  | .conditional condition mark yes no => by
    rw [Expr.tree, visit_plain rfl]
    simp only [visitChildren, pure_bind, bind_assoc]
    exact (mirrors_expr condition).bind fun condition _ => (mirrors_expr yes).bind fun yes _ =>
      (mirrors_expr no).bind fun no _ => .pure (Expr.conditional condition mark yes no)
  | .lambda f => by
    rw [Expr.tree, Function.tree_eq]
    -- The walk keeps the token that the line and the head of the tree are taken from.
    refine (mirrors_function "lambda_expr" .lambda f).bind fun g hg => .done ?_
    rw [Expr.tree, Function.tree_eq, head_resolveFunction hg]
    rfl
  | .comma left op right =>
    mirrors_infix rfl (mirrors_expr left) (mirrors_expr right) (f := .comma) fun _ _ => rfl
  | .binary left op right =>
    mirrors_infix rfl (mirrors_expr left) (mirrors_expr right) (f := .binary) fun _ _ => rfl
  | .logical left op right =>
    mirrors_infix rfl (mirrors_expr left) (mirrors_expr right) (f := .logical) fun _ _ => rfl
  | .unary op operand => by
    rw [Expr.tree, visit_plain rfl]
    simp only [visitChildren, pure_bind, bind_assoc]
    exact (mirrors_expr operand).bind fun operand _ => .pure (Expr.unary op operand)
  | .call callee paren arguments => by
    have harguments := @visit_plain "arguments" rfl
    rw [Expr.tree, visit_plain rfl]
    simp only [visitChildren, harguments, pure_bind, bind_assoc]
    exact (mirrors_expr callee).bind fun callee _ =>
      (mirrors_exprs arguments).bind fun arguments _ =>
        .pure (Expr.call callee paren arguments)
  | .this target =>
    (mirrors_readThis target).use (fun around => name_readThis around target) fun r hr => by
      rw [Expr.tree, Tree.ofReference, hr]
  | .super target method =>
    (mirrors_readSuper target).use (fun around => name_readSuper around target) fun r hr => by
      rw [Expr.tree, Tree.ofReference, hr]
  | .grouping paren inner => by
    rw [Expr.tree, visit_plain rfl]
    simp only [visitChildren, pure_bind, bind_assoc]
    exact (mirrors_expr inner).bind fun inner _ => .pure (Expr.grouping paren inner)
  | .list bracket elements => by
    rw [Expr.tree, visit_plain rfl]
    simp only [visitChildren, pure_bind, bind_assoc]
    exact (mirrors_exprs elements).bind fun elements _ => .pure (Expr.list bracket elements)
  | .invalid token => .pure (Expr.invalid token)

lemma mirrors_exprs : (es : List Expr) →
    Mirrors Steady exprLeaves (visitChildren (exprLeaves es)) (resolveExprs · es)
  | [] => .pure []
  | e :: more => by
    rw [exprLeaves, visitChildren]
    exact (mirrors_expr e).bind fun e _ => (mirrors_exprs more).bind fun more _ => .pure (e :: more)

lemma mirrors_stmt : (s : Stmt) → Mirrors Grown Stmt.tree (visit s.tree) (resolveStmt · s)
  | .expression line value => by
    rw [Stmt.tree, visit_plain rfl]
    simp only [visitChildren, pure_bind, bind_assoc]
    exact (mirrors_expr value).grown.bind fun value _ => .pure (Stmt.expression line value)
  | .print keyword value => by
    rw [Stmt.tree, visit_plain rfl]
    simp only [visitChildren, pure_bind, bind_assoc]
    exact (mirrors_expr value).grown.bind fun value _ => .pure (Stmt.print keyword value)
  | .var name none => (mirrors_declareReady name true).andThen (.pure (Stmt.var name none))
  | .var name (some init) => by
    rw [Stmt.tree, Tree.plain, visit_var]
    exact (mirrors_expr init).initializing name true fun init => rfl
  | .block line body =>
    (mirrors_stmts body).inScope.grown.bind fun body _ => .pure (Stmt.block line body)
  | .ifElse keyword condition yes none => by
    rw [Stmt.tree, visit_plain rfl]
    simp only [visitChildren, pure_bind, bind_assoc]
    exact (mirrors_expr condition).grown.bind fun condition _ =>
      (mirrors_stmt yes).bind fun yes _ => .pure (Stmt.ifElse keyword condition yes none)
  | .ifElse keyword condition yes (some no) => by
    rw [Stmt.tree, visit_plain rfl]
    simp only [visitChildren, pure_bind, bind_assoc]
    exact (mirrors_expr condition).grown.bind fun condition _ =>
      (mirrors_stmt yes).bind fun yes _ => (mirrors_stmt no).bind fun no _ =>
        .pure (Stmt.ifElse keyword condition yes (some no))
  | .whileLoop keyword condition body => by
    rw [Stmt.tree, visit_plain rfl]
    simp only [visitChildren, pure_bind, bind_assoc]
    exact (mirrors_expr condition).grown.bind fun condition _ =>
      (mirrors_stmt body).bind fun body _ => .pure (Stmt.whileLoop keyword condition body)
  | .breakLoop keyword => by
    rw [Stmt.tree, visit_plain rfl]
    simp only [visitChildren, pure_bind]
    exact .pure (Stmt.breakLoop keyword)
  | .returnValue keyword none =>
    (mirrors_checkReturn keyword false).grown.andThen (.pure (Stmt.returnValue keyword none))
  | .returnValue keyword (some value) => by
    rw [Stmt.tree, Tree.plain, visit_return]
    exact (mirrors_checkReturn keyword true).grown.andThen
      ((mirrors_expr value).grown.bind fun value _ =>
        .pure (Stmt.returnValue keyword (some value)))
  | .function f => by
    rw [Stmt.tree, Function.tree_eq, visit_function]
    refine (mirrors_declareReady f.head true).andThen
      ((mirrors_function "function" .named f).grown.bind fun g hg => .done ?_)
    rw [Stmt.tree, Function.tree_eq, head_resolveFunction hg]
  | .classDecl name superclass line methods statics =>
    mirrors_class ((mirrors_members "class_decl" false methods).bind fun methods _ =>
      (mirrors_members "class_decl" true statics).bind fun statics _ => .pure (methods, statics))
      name superclass line
  | .invalid token => .pure (Stmt.invalid token)

lemma mirrors_stmts : (body : List Stmt) →
    Mirrors Grown stmtLeaves (visitChildren (stmtLeaves body)) (resolveStmts · body)
  | [] => .pure []
  | s :: more => by
    rw [stmtLeaves, visitChildren]
    exact (mirrors_stmt s).bind fun s _ => (mirrors_stmts more).bind fun more _ => .pure (s :: more)

lemma mirrors_function (label : String) (setting : Setting) : (f : Function) →
    Mirrors Steady Function.leaves (visitFunction label setting f.leaves)
      (resolveFunction · setting.routine f)
  | .mk head params line body => by
    have hstmts : Mirrors Grown Function.leaves
        (do
          let body ← visitChildren (stmtLeaves body)
          return [.token head, .ofParams params, .tree (.plain "body" line body)])
        (fun around => do return .mk head params line (← resolveStmts around body)) :=
      (mirrors_stmts body).bind fun body _ => .pure (Function.mk head params line body)
    have hbody := (mirrors_declareParams ((params.map Params.names).getD [])).andThen hstmts
    rw [Function.leaves, Tree.plain, visitFunction, parameters_ofParams, visitStatements_eq,
      pure_bind]
    exact hbody.inFunction setting

lemma mirrors_members (label : String) (isStatic : Bool) : (fs : List Function) →
    Mirrors Steady memberLeaves (visitMembers label isStatic (memberLeaves fs))
      (resolveMembers · isStatic fs)
  | [] => .pure []
  | f :: more => by
    rw [memberLeaves, Function.tree_eq, Tree.plain, visitMembers]
    have hfunction := mirrors_function "function" (memberSetting isStatic f.leaves) f
    rw [routine_memberSetting] at hfunction
    refine hfunction.bind fun g hg =>
      (mirrors_members label isStatic more).bind fun more _ => .done ?_
    rw [memberLeaves, Function.tree_eq, head_resolveFunction hg]
    rfl

end

end Visitor

/-- As many scopes are open as before, and it is inside of what it was inside of before. Below the
innermost scope nothing has come to be declared, and what has been left unread can be reported. -/
structure Progress.Balanced (v w : Progress) : Prop where
  height : w.stack.length = v.stack.length
  setting : w.setting = v.setting
  membership : w.membership = v.membership
  outer : List.Forall₂ Scope.Marked v.stack.tail w.stack.tail
  unused : Reportable v.unused w.unused

lemma Grown.length_eq {l m : List Scope} (h : Grown l m) : m.length = l.length := by
  cases h with
  | nil => rfl
  | cons _ houter => exact congrArg Nat.succ houter.length_eq.symm

lemma Grown.tail {l m : List Scope} (h : Grown l m) : Steady l.tail m.tail := by
  cases h with
  | nil => exact .nil
  | cons _ houter => exact houter

namespace Visitor

open Resolver

variable {α : Type} {v : Progress}

lemma Gives.balanced {visit : Visitor α} {x : α} {σ : Scopes}
    (h : Gives Grown v visit x σ v.setting v.membership) :
    ∃ w, visit v = .ok x w ∧ v.Balanced w ∧ w.scopes = σ := by
  obtain ⟨w, hvisit, hw⟩ := h
  exact ⟨w, hvisit, ⟨hw.stack.length_eq, hw.setting, hw.membership, hw.stack.tail, hw.unused⟩,
    hw.scopes⟩

lemma mirrors_trees (body : List Stmt) :
    Mirrors Grown (List.map Stmt.tree) ((body.map Stmt.tree).mapM visit) (resolveStmts · body) := by
  induction body with
  | nil => exact .pure []
  | cons s more ih =>
    rw [List.map_cons, List.mapM_cons]
    exact (mirrors_stmt s).bind fun s _ => ih.bind fun more _ => .pure (s :: more)

lemma unreadTokens_eq {unread : List Binding} (h : ∀ b ∈ unread, b.token.isSome = true) :
    unreadTokens unread = pure (unread.filterMap Binding.token) := by
  induction unread with
  | nil => rfl
  | cons b more ih =>
    obtain ⟨hb, hmore⟩ := List.forall_mem_cons.mp h
    obtain ⟨t, ht⟩ := Option.isSome_iff_exists.mp hb
    rw [unreadTokens, ht, ih hmore, List.filterMap_cons_some ht]
    rfl

lemma reportUnused_eq (h : ∀ b ∈ v.unused, b.token.isSome = true) :
    reportUnused v =
      .ok () { v with reports := v.scopes.reportUnused.reports, unused := [] } := by
  rw [reportUnused, get_bind, unreadTokens_eq h]
  rfl

theorem visitProgram_eq (body : List Stmt) :
    ∃ w, visitProgram (body.map Stmt.tree) start = .ok ((program body).1.map Stmt.tree) w ∧
      start.Balanced w ∧ w.reports = (program body).2 := by
  obtain ⟨w, hvisit, hw, hscopes⟩ := (mirrors_trees body start).balanced
  have htokens : ∀ b ∈ w.unused, b.token.isSome = true := by
    obtain ⟨left, hleft, htokens⟩ := hw.unused
    exact hleft ▸ htokens
  refine ⟨{ w with reports := w.scopes.reportUnused.reports, unused := [] }, ?_,
    ⟨hw.height, hw.setting, hw.membership, hw.outer, .refl []⟩,
    congrArg (fun σ : Scopes => σ.reportUnused.reports) hscopes⟩
  rw [visitProgram, bind_of_ok hvisit, bind_of_ok (reportUnused_eq htokens)]
  rfl

theorem visit_expression_eq (e : Expr) :
    ∃ w, visit e.tree start = .ok (expression e).1.tree w ∧ start.Balanced w ∧
      w.reports = (expression e).2 := by
  obtain ⟨w, hvisit, hw, hscopes⟩ := (mirrors_expr e start).grown.balanced
  exact ⟨w, hvisit, hw, congrArg Scopes.reports hscopes⟩

end Visitor

end Lox
