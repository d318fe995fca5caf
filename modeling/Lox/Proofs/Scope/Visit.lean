import Lox.Proofs.Scope.Walk

/-! Visits: the moments at which the walk over a program comes to each piece of it. -/

namespace Lox

open Resolver

inductive Piece where
  | expr (e : Expr)
  | exprs (es : List Expr)
  | stmt (s : Stmt)
  | stmts (body : List Stmt)
  | function (routine : Routine) (f : Function)
  | members (isStatic : Bool) (fs : List Function)

/-- A moment of the walk: what it is inside of, the scopes that are open, and those scopes as they
will be when they are left. -/
structure Site where
  around : Surroundings
  scopes : Scopes
  closing : List Scope

namespace Site

variable {α : Type}

def top : Site := ⟨outermost, .start, []⟩

def passed (p : Site) (walk : Resolver α) : Site := { p with scopes := walk.after p.scopes }

def inside (p : Site) (opening : Resolver Unit) (walk : Resolver α) : Site :=
  let σ := opening.after p.scopes.enter
  { p with scopes := σ, closing := (walk.after σ).stack.headD .empty :: p.closing }

def expr (p : Site) (e : Expr) : Expr := (resolveExpr p.around e).result p.scopes

def exprs (p : Site) (es : List Expr) : List Expr := (resolveExprs p.around es).result p.scopes

def stmt (p : Site) (s : Stmt) : Stmt := (resolveStmt p.around s).result p.scopes

def stmts (p : Site) (body : List Stmt) : List Stmt := (resolveStmts p.around body).result p.scopes

def function (p : Site) (routine : Routine) (f : Function) : Function :=
  (resolveFunction p.around routine f).result p.scopes

def members (p : Site) (isStatic : Bool) (fs : List Function) : List Function :=
  (resolveMembers p.around isStatic fs).result p.scopes

def read (p : Site) (target : Reference) : Reference := (readName target).result p.scopes

def afterExpr (p : Site) (e : Expr) : Site := p.passed (resolveExpr p.around e)

def afterStmt (p : Site) (s : Stmt) : Site := p.passed (resolveStmt p.around s)

def inFunction (p : Site) (routine : Routine) (params : Option Params) (body : List Stmt) : Site :=
  let around := { p.around with routine }
  { p with around }.inside (declareParams ((params.map Params.names).getD []))
    (resolveStmts around body)

def afterSuperclass (p : Site) (name : Token) (superclass : Option Reference) : Site :=
  (p.passed (declareReady name true)).passed (resolveSuperclass name superclass)

def superclass (p : Site) (name : Token) (superclass : Option Reference) : Option Reference :=
  (resolveSuperclass name superclass).result (p.passed (declareReady name true)).scopes

def hasSuper (p : Site) (name : Token) (superclass : Option Reference) : Bool :=
  (p.superclass name superclass).isSome

def classSurroundings (p : Site) (hasSuper : Bool) : Surroundings :=
  { p.around with membership := if hasSuper then .subclass else .rootClass }

end Site

def Resolver.implicitly (name : String) : Resolver Unit := modify (·.declareImplicit name)

def Resolver.bothMembers (around : Surroundings) (methods statics : List Function) :
    Resolver (List Function × List Function) := do
  let methods ← resolveMembers around false methods
  return (methods, ← resolveMembers around true statics)

namespace Site

def inSuper (p : Site) (hasSuper : Bool) (methods statics : List Function) : Site :=
  if hasSuper then
    p.inside (implicitly "super") <| inScope do
      implicitly "this"
      bothMembers (p.classSurroundings hasSuper) methods statics
  else p

def inMembers (p : Site) (hasSuper : Bool) (methods statics : List Function) : Site :=
  let around := p.classSurroundings hasSuper
  { p.inSuper hasSuper methods statics with around }.inside
    (implicitly "this") (bothMembers around methods statics)

def inClass (p : Site) (name : Token) (superclass : Option Reference)
    (methods statics : List Function) : Site :=
  (p.afterSuperclass name superclass).inMembers (p.hasSuper name superclass) methods statics

end Site

def Expr.operands : Expr → List Expr
  | .assign _ value _ => [value]
  | .get object _ => [object]
  | .set object _ value _ => [object, value]
  | .conditional condition _ yes no => [condition, yes, no]
  | .comma left _ right => [left, right]
  | .binary left _ right => [left, right]
  | .logical left _ right => [left, right]
  | .unary _ operand => [operand]
  | .call callee _ arguments => callee :: arguments
  | .grouping _ inner => [inner]
  | .list _ elements => elements
  | _ => []

def Stmt.leading? : Stmt → Option Expr
  | .expression _ value => some value
  | .print _ value => some value
  | .ifElse _ condition _ _ => some condition
  | .whileLoop _ condition _ => some condition
  | _ => none

inductive Enters : Site → Piece → Site → Piece → Prop where
  | operands {p : Site} {e : Expr} : Enters p (.expr e) p (.exprs e.operands)
  | headExpr {p : Site} {e : Expr} {es : List Expr} : Enters p (.exprs (e :: es)) p (.expr e)
  | tailExprs {p : Site} {e : Expr} {es : List Expr} :
    Enters p (.exprs (e :: es)) (p.afterExpr e) (.exprs es)
  | lambda {p : Site} {f : Function} : Enters p (.expr (.lambda f)) p (.function .ordinary f)
  | leading {p : Site} {s : Stmt} {e : Expr} (h : s.leading? = some e) :
    Enters p (.stmt s) p (.expr e)
  | init {p : Site} {name : Token} {e : Expr} :
    Enters p (.stmt (.var name (some e))) (p.passed (modify (·.declare name true))) (.expr e)
  | block {p : Site} {line : Nat} {body : List Stmt} :
    Enters p (.stmt (.block line body)) (p.inside (pure ()) (resolveStmts p.around body))
      (.stmts body)
  | yes {p : Site} {keyword : Token} {c : Expr} {yes : Stmt} {no : Option Stmt} :
    Enters p (.stmt (.ifElse keyword c yes no)) (p.afterExpr c) (.stmt yes)
  | no {p : Site} {keyword : Token} {c : Expr} {yes no : Stmt} :
    Enters p (.stmt (.ifElse keyword c yes (some no))) ((p.afterExpr c).afterStmt yes) (.stmt no)
  | loopBody {p : Site} {keyword : Token} {c : Expr} {body : Stmt} :
    Enters p (.stmt (.whileLoop keyword c body)) (p.afterExpr c) (.stmt body)
  | returned {p : Site} {keyword : Token} {e : Expr} :
    Enters p (.stmt (.returnValue keyword (some e))) (p.passed (checkReturn p.around keyword true))
      (.expr e)
  | named {p : Site} {f : Function} :
    Enters p (.stmt (.function f)) (p.passed (declareReady f.head true)) (.function .ordinary f)
  | methods {p : Site} {name : Token} {superclass : Option Reference} {line : Nat}
      {methods statics : List Function} :
    Enters p (.stmt (.classDecl name superclass line methods statics))
      (p.inClass name superclass methods statics) (.members false methods)
  | statics {p : Site} {name : Token} {superclass : Option Reference} {line : Nat}
      {methods statics : List Function} :
    Enters p (.stmt (.classDecl name superclass line methods statics))
      ((p.inClass name superclass methods statics).passed
        (resolveMembers (p.inClass name superclass methods statics).around false methods))
      (.members true statics)
  | headStmt {p : Site} {s : Stmt} {body : List Stmt} : Enters p (.stmts (s :: body)) p (.stmt s)
  | tailStmts {p : Site} {s : Stmt} {body : List Stmt} :
    Enters p (.stmts (s :: body)) (p.afterStmt s) (.stmts body)
  | body {p : Site} {routine : Routine} {head : Token} {params : Option Params} {line : Nat}
      {body : List Stmt} :
    Enters p (.function routine (.mk head params line body)) (p.inFunction routine params body)
      (.stmts body)
  | headMember {p : Site} {isStatic : Bool} {f : Function} {fs : List Function} :
    Enters p (.members isStatic (f :: fs)) p (.function (memberRoutine isStatic f) f)
  | tailMembers {p : Site} {isStatic : Bool} {f : Function} {fs : List Function} :
    Enters p (.members isStatic (f :: fs))
      (p.passed (resolveFunction p.around (memberRoutine isStatic f) f)) (.members isStatic fs)

inductive Reaches (p : Site) (n : Piece) : Site → Piece → Prop where
  | here : Reaches p n p n
  | enter {q r : Site} {m o : Piece} (h : Reaches p n q m) (h' : Enters q m r o) : Reaches p n r o

/-- The walk over one of the sources comes to a piece. -/
def Visits (sources : List String) (p : Site) (n : Piece) : Prop :=
  ∃ source ∈ sources, Reaches .top (.stmts (Program.ofSource source).body) p n

namespace Site

variable (p : Site)

lemma expr_assign (target : Reference) (value : Expr) (line : Nat) :
    p.expr (.assign target value line) =
      .assign ((find target false).result (p.afterExpr value).scopes) (p.expr value) line := rfl

lemma result_inMemberScopes (hasSuper : Bool) (methods statics : List Function) :
    (inMemberScopes hasSuper
        (bothMembers (p.classSurroundings hasSuper) methods statics)).result p.scopes =
      let q := p.inMembers hasSuper methods statics
      (q.members false methods,
        (q.passed (resolveMembers q.around false methods)).members true statics) := by
  cases hasSuper <;> rfl

lemma stmt_classDecl (name : Token) (superclass : Option Reference) (line : Nat)
    (methods statics : List Function) :
    p.stmt (.classDecl name superclass line methods statics) =
      let q := p.inClass name superclass methods statics
      .classDecl name (p.superclass name superclass) line (q.members false methods)
        ((q.passed (resolveMembers q.around false methods)).members true statics) := by
  have hboth := (p.afterSuperclass name superclass).result_inMemberScopes
    (p.hasSuper name superclass) methods statics
  have hstmt : p.stmt (.classDecl name superclass line methods statics) =
      let both := (inMemberScopes (p.hasSuper name superclass)
        (bothMembers ((p.afterSuperclass name superclass).classSurroundings
          (p.hasSuper name superclass)) methods statics)).result
        (p.afterSuperclass name superclass).scopes
      .classDecl name (p.superclass name superclass) line both.1 both.2 := rfl
  rw [hstmt, hboth]
  rfl

lemma function_mk (routine : Routine) (head : Token) (params : Option Params) (line : Nat)
    (body : List Stmt) :
    p.function routine (.mk head params line body) =
      .mk head params line ((p.inFunction routine params body).stmts body) := rfl

end Site

end Lox
