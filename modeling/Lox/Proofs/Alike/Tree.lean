import Mathlib.Data.List.Forall2
import Lox.Syntax
import Mathlib.Tactic.Lemma

/-! Trees of one shape, whose tokens and names may differ. What may differ about a name depends on
the scopes around it. -/

namespace Lox

/-- What counts as alike in two trees, given what is known of the scopes around. -/
structure Likeness (Γ : Type) where
  token : Token → Token → Prop
  -- Keywords of loops.
  loop : Token → Token → Prop
  use : Γ → Reference → Reference → Prop
  -- Variables and parameters of the innermost scope.
  binder : Γ → Token → Token → Prop
  -- Functions and classes of the innermost scope.
  title : Γ → Token → Token → Prop
  -- From the scopes around a block or a function to those in it.
  enter : Γ → Γ → Prop
  -- The scopes around class members; there is one more if there is a superclass.
  members : Bool → Γ → Γ

variable {Γ Δ : Type}

mutual

inductive Expr.Alike (K : Likeness Γ) : Γ → Expr → Expr → Prop
  | literal {γ t t' v} : K.token t t' → Expr.Alike K γ (.literal t v) (.literal t' v)
  | ref {γ r r'} : K.use γ r r' → Expr.Alike K γ (.ref r) (.ref r')
  | assign {γ r r' value value' n n'} : K.use γ r r' → Expr.Alike K γ value value' →
      Expr.Alike K γ (.assign r value n) (.assign r' value' n')
  | get {γ object object' t t'} : Expr.Alike K γ object object' → K.token t t' →
      Expr.Alike K γ (.get object t) (.get object' t')
  | set {γ object object' t t' value value' n n'} : Expr.Alike K γ object object' →
      K.token t t' → Expr.Alike K γ value value' →
      Expr.Alike K γ (.set object t value n) (.set object' t' value' n')
  | conditional {γ c c' t t' yes yes' no no'} : Expr.Alike K γ c c' → K.token t t' →
      Expr.Alike K γ yes yes' → Expr.Alike K γ no no' →
      Expr.Alike K γ (.conditional c t yes no) (.conditional c' t' yes' no')
  | lambda {γ f f'} : Function.Alike K γ f f' → Expr.Alike K γ (.lambda f) (.lambda f')
  | comma {γ l l' t t' r r'} : Expr.Alike K γ l l' → K.token t t' → Expr.Alike K γ r r' →
      Expr.Alike K γ (.comma l t r) (.comma l' t' r')
  | binary {γ l l' t t' r r'} : Expr.Alike K γ l l' → K.token t t' → Expr.Alike K γ r r' →
      Expr.Alike K γ (.binary l t r) (.binary l' t' r')
  | logical {γ l l' t t' r r'} : Expr.Alike K γ l l' → K.token t t' → Expr.Alike K γ r r' →
      Expr.Alike K γ (.logical l t r) (.logical l' t' r')
  | unary {γ t t' e e'} : K.token t t' → Expr.Alike K γ e e' →
      Expr.Alike K γ (.unary t e) (.unary t' e')
  | call {γ callee callee' t t' es es'} : Expr.Alike K γ callee callee' → K.token t t' →
      AlikeExprs K γ es es' → Expr.Alike K γ (.call callee t es) (.call callee' t' es')
  | this {γ r r'} : K.use γ r r' → Expr.Alike K γ (.this r) (.this r')
  | super {γ r r' t t'} : K.use γ r r' → K.token t t' →
      Expr.Alike K γ (.super r t) (.super r' t')
  | grouping {γ t t' e e'} : K.token t t' → Expr.Alike K γ e e' →
      Expr.Alike K γ (.grouping t e) (.grouping t' e')
  | list {γ t t' es es'} : K.token t t' → AlikeExprs K γ es es' →
      Expr.Alike K γ (.list t es) (.list t' es')
  | invalid {γ t t'} : K.token t t' → Expr.Alike K γ (.invalid t) (.invalid t')

inductive AlikeExprs (K : Likeness Γ) : Γ → List Expr → List Expr → Prop
  | nil {γ} : AlikeExprs K γ [] []
  | cons {γ e e' es es'} : Expr.Alike K γ e e' → AlikeExprs K γ es es' →
      AlikeExprs K γ (e :: es) (e' :: es')

inductive Stmt.Alike (K : Likeness Γ) : Γ → Stmt → Stmt → Prop
  | expression {γ n n' e e'} : Expr.Alike K γ e e' →
      Stmt.Alike K γ (.expression n e) (.expression n' e')
  | print {γ t t' e e'} : K.token t t' → Expr.Alike K γ e e' →
      Stmt.Alike K γ (.print t e) (.print t' e')
  | declare {γ t t'} : K.binder γ t t' → Stmt.Alike K γ (.var t none) (.var t' none)
  | define {γ t t' e e'} : K.binder γ t t' → Expr.Alike K γ e e' →
      Stmt.Alike K γ (.var t (some e)) (.var t' (some e'))
  | block {γ δ n n' body body'} : K.enter γ δ → AlikeStmts K δ body body' →
      Stmt.Alike K γ (.block n body) (.block n' body')
  | ifOnly {γ t t' c c' yes yes'} : K.token t t' → Expr.Alike K γ c c' →
      Stmt.Alike K γ yes yes' → Stmt.Alike K γ (.ifElse t c yes none) (.ifElse t' c' yes' none)
  | ifElse {γ t t' c c' yes yes' no no'} : K.token t t' → Expr.Alike K γ c c' →
      Stmt.Alike K γ yes yes' → Stmt.Alike K γ no no' →
      Stmt.Alike K γ (.ifElse t c yes (some no)) (.ifElse t' c' yes' (some no'))
  | whileLoop {γ t t' c c' body body'} : K.loop t t' → Expr.Alike K γ c c' →
      Stmt.Alike K γ body body' → Stmt.Alike K γ (.whileLoop t c body) (.whileLoop t' c' body')
  | breakLoop {γ t t'} : K.token t t' → Stmt.Alike K γ (.breakLoop t) (.breakLoop t')
  | returnNothing {γ t t'} : K.token t t' →
      Stmt.Alike K γ (.returnValue t none) (.returnValue t' none)
  | returnValue {γ t t' e e'} : K.token t t' → Expr.Alike K γ e e' →
      Stmt.Alike K γ (.returnValue t (some e)) (.returnValue t' (some e'))
  | function {γ f f'} : K.title γ f.head f'.head → Function.Alike K γ f f' →
      Stmt.Alike K γ (.function f) (.function f')
  | classDecl {γ t t' parent parent' n n' ms ms' ss ss'} : K.title γ t t' →
      Option.Rel (K.use γ) parent parent' →
      AlikeMembers K (K.members parent.isSome γ) ms ms' →
      AlikeMembers K (K.members parent.isSome γ) ss ss' →
      Stmt.Alike K γ (.classDecl t parent n ms ss) (.classDecl t' parent' n' ms' ss')
  | invalid {γ t t'} : K.token t t' → Stmt.Alike K γ (.invalid t) (.invalid t')

inductive AlikeStmts (K : Likeness Γ) : Γ → List Stmt → List Stmt → Prop
  | nil {γ} : AlikeStmts K γ [] []
  | cons {γ s s' body body'} : Stmt.Alike K γ s s' → AlikeStmts K γ body body' →
      AlikeStmts K γ (s :: body) (s' :: body')

inductive Function.Alike (K : Likeness Γ) : Γ → Function → Function → Prop
  | mk {γ δ t t' params params' n n' body body'} : K.token t t' → K.enter γ δ →
      Option.Rel (fun p p' : Params => List.Forall₂ (K.binder δ) p.names p'.names)
        params params' →
      AlikeStmts K δ body body' →
      Function.Alike K γ (.mk t params n body) (.mk t' params' n' body')

inductive AlikeMembers (K : Likeness Γ) : Γ → List Function → List Function → Prop
  | nil {γ} : AlikeMembers K γ [] []
  | cons {γ f f' ms ms'} : Function.Alike K γ f f' → AlikeMembers K γ ms ms' →
      AlikeMembers K γ (f :: ms) (f' :: ms')

end

lemma Function.Alike.head {K : Likeness Γ} {γ : Γ} {f f' : Function} (h : f.Alike K γ f') :
    K.token f.head f'.head := by
  cases h with
  | mk ht _ _ _ => exact ht

lemma AlikeExprs.length {K : Likeness Γ} {γ : Γ} {es es' : List Expr}
    (h : AlikeExprs K γ es es') : es'.length = es.length := by
  induction es generalizing es' with
  | nil =>
    cases h
    rfl
  | cons e es ih =>
    cases h with
    | cons _ h => exact congrArg Nat.succ (ih h)

structure Likeness.Weaker (K : Likeness Γ) (K' : Likeness Δ) (G : Γ → Δ → Prop) : Prop where
  token : ∀ {t t'}, K.token t t' → K'.token t t'
  loop : ∀ {t t'}, K.loop t t' → K'.loop t t'
  use : ∀ {γ δ r r'}, G γ δ → K.use γ r r' → K'.use δ r r'
  binder : ∀ {γ δ t t'}, G γ δ → K.binder γ t t' → K'.binder δ t t'
  title : ∀ {γ δ t t'}, G γ δ → K.title γ t t' → K'.title δ t t'
  enter : ∀ {γ δ γ₁}, G γ δ → K.enter γ γ₁ → ∃ δ₁, K'.enter δ δ₁ ∧ G γ₁ δ₁
  members : ∀ {γ δ} b, G γ δ → G (K.members b γ) (K'.members b δ)

lemma optionRel_mono {α β : Type} {R S : α → β → Prop} {a : Option α} {b : Option β}
    (h : Option.Rel R a b) (hRS : ∀ x y, R x y → S x y) : Option.Rel S a b := by
  cases h with
  | none => exact .none
  | some hr => exact .some (hRS _ _ hr)

lemma optionRel_or {α : Type} {R : α → α → Prop} {a a' b b' : Option α}
    (ha : Option.Rel R a a') (hb : Option.Rel R b b') : Option.Rel R (a.or b) (a'.or b') := by
  cases ha with
  | none => exact hb
  | some hr => exact .some hr

section Weaker

variable {K : Likeness Γ} {K' : Likeness Δ} {G : Γ → Δ → Prop}

mutual

lemma Expr.Alike.weaken (w : K.Weaker K' G) {γ : Γ} {δ : Δ} (hγ : G γ δ) :
    (e : Expr) → (e' : Expr) → e.Alike K γ e' → e.Alike K' δ e'
  | .literal _ _, _, .literal ht => .literal (w.token ht)
  | .ref _, _, .ref hr => .ref (w.use hγ hr)
  | .assign _ value _, _, .assign hr hv => .assign (w.use hγ hr) (hv.weaken w hγ value _)
  | .get object _, _, .get ho ht => .get (ho.weaken w hγ object _) (w.token ht)
  | .set object _ value _, _, .set ho ht hv =>
    .set (ho.weaken w hγ object _) (w.token ht) (hv.weaken w hγ value _)
  | .conditional c _ yes no, _, .conditional hc ht hy hn =>
    .conditional (hc.weaken w hγ c _) (w.token ht) (hy.weaken w hγ yes _) (hn.weaken w hγ no _)
  | .lambda f, _, .lambda hf => .lambda (hf.weaken w hγ f _)
  | .comma l _ r, _, .comma hl ht hr =>
    .comma (hl.weaken w hγ l _) (w.token ht) (hr.weaken w hγ r _)
  | .binary l _ r, _, .binary hl ht hr =>
    .binary (hl.weaken w hγ l _) (w.token ht) (hr.weaken w hγ r _)
  | .logical l _ r, _, .logical hl ht hr =>
    .logical (hl.weaken w hγ l _) (w.token ht) (hr.weaken w hγ r _)
  | .unary _ e, _, .unary ht he => .unary (w.token ht) (he.weaken w hγ e _)
  | .call callee _ es, _, .call hc ht hes =>
    .call (hc.weaken w hγ callee _) (w.token ht) (hes.weaken w hγ es _)
  | .this _, _, .this hr => .this (w.use hγ hr)
  | .super _ _, _, .super hr ht => .super (w.use hγ hr) (w.token ht)
  | .grouping _ e, _, .grouping ht he => .grouping (w.token ht) (he.weaken w hγ e _)
  | .list _ es, _, .list ht hes => .list (w.token ht) (hes.weaken w hγ es _)
  | .invalid _, _, .invalid ht => .invalid (w.token ht)

lemma AlikeExprs.weaken (w : K.Weaker K' G) {γ : Γ} {δ : Δ} (hγ : G γ δ) :
    (es es' : List Expr) → AlikeExprs K γ es es' → AlikeExprs K' δ es es'
  | [], _, .nil => .nil
  | e :: es, _, .cons he hes => .cons (he.weaken w hγ e _) (hes.weaken w hγ es _)

lemma Stmt.Alike.weaken (w : K.Weaker K' G) {γ : Γ} {δ : Δ} (hγ : G γ δ) :
    (s : Stmt) → (s' : Stmt) → s.Alike K γ s' → s.Alike K' δ s'
  | .expression _ e, _, .expression he => .expression (he.weaken w hγ e _)
  | .print _ e, _, .print ht he => .print (w.token ht) (he.weaken w hγ e _)
  | .var _ none, _, .declare ht => .declare (w.binder hγ ht)
  | .var _ (some e), _, .define ht he => .define (w.binder hγ ht) (he.weaken w hγ e _)
  | .block _ body, _, .block hδ hbody =>
    have ⟨_, henter, hγ₁⟩ := w.enter hγ hδ
    .block henter (hbody.weaken w hγ₁ body _)
  | .ifElse _ c yes none, _, .ifOnly ht hc hy =>
    .ifOnly (w.token ht) (hc.weaken w hγ c _) (hy.weaken w hγ yes _)
  | .ifElse _ c yes (some no), _, .ifElse ht hc hy hn =>
    .ifElse (w.token ht) (hc.weaken w hγ c _) (hy.weaken w hγ yes _) (hn.weaken w hγ no _)
  | .whileLoop _ c body, _, .whileLoop ht hc hb =>
    .whileLoop (w.loop ht) (hc.weaken w hγ c _) (hb.weaken w hγ body _)
  | .breakLoop _, _, .breakLoop ht => .breakLoop (w.token ht)
  | .returnValue _ none, _, .returnNothing ht => .returnNothing (w.token ht)
  | .returnValue _ (some e), _, .returnValue ht he =>
    .returnValue (w.token ht) (he.weaken w hγ e _)
  | .function f, _, .function ht hf => .function (w.title hγ ht) (hf.weaken w hγ f _)
  | .classDecl _ _ _ ms ss, _, .classDecl ht hp hms hss =>
    .classDecl (w.title hγ ht) (optionRel_mono hp fun _ _ => w.use hγ)
      (hms.weaken w (w.members _ hγ) ms _) (hss.weaken w (w.members _ hγ) ss _)
  | .invalid _, _, .invalid ht => .invalid (w.token ht)

lemma AlikeStmts.weaken (w : K.Weaker K' G) {γ : Γ} {δ : Δ} (hγ : G γ δ) :
    (body body' : List Stmt) → AlikeStmts K γ body body' → AlikeStmts K' δ body body'
  | [], _, .nil => .nil
  | s :: body, _, .cons hs hbody => .cons (hs.weaken w hγ s _) (hbody.weaken w hγ body _)

lemma Function.Alike.weaken (w : K.Weaker K' G) {γ : Γ} {δ : Δ} (hγ : G γ δ) :
    (f f' : Function) → f.Alike K γ f' → f.Alike K' δ f'
  | .mk _ _ _ body, _, .mk ht hδ hp hbody =>
    have ⟨_, henter, hγ₁⟩ := w.enter hγ hδ
    .mk (w.token ht) henter
      (optionRel_mono hp fun _ _ hnames => hnames.imp fun _ _ => w.binder hγ₁)
      (hbody.weaken w hγ₁ body _)

lemma AlikeMembers.weaken (w : K.Weaker K' G) {γ : Γ} {δ : Δ} (hγ : G γ δ) :
    (ms ms' : List Function) → AlikeMembers K γ ms ms' → AlikeMembers K' δ ms ms'
  | [], _, .nil => .nil
  | f :: ms, _, .cons hf hms => .cons (hf.weaken w hγ f _) (hms.weaken w hγ ms _)

end

end Weaker

end Lox
