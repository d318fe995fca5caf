import Lox.Proofs.Alike.Execute

namespace Lox

variable {Γ : Type}

structure Likeness.Reflexive (K : Likeness Γ) (γ : Γ) : Prop where
  token : ∀ t, K.token t t
  loop : ∀ t, K.loop t t
  use : ∀ r, K.use γ r r
  binder : ∀ t, K.binder γ t t
  title : ∀ t, K.title γ t t
  enter : K.enter γ γ
  members : ∀ b, K.members b γ = γ

lemma optionRel_same {α : Type} {R : α → α → Prop} (hR : ∀ x, R x x) (a : Option α) :
    Option.Rel R a a := by
  cases a with
  | none => exact .none
  | some x => exact .some (hR x)

section Trees

variable {K : Likeness Γ} {γ : Γ}

mutual

lemma Expr.alike_self (h : K.Reflexive γ) : (e : Expr) → e.Alike K γ e
  | .literal t _ => .literal (h.token t)
  | .ref r => .ref (h.use r)
  | .assign r value _ => .assign (h.use r) (value.alike_self h)
  | .get object t => .get (object.alike_self h) (h.token t)
  | .set object t value _ => .set (object.alike_self h) (h.token t) (value.alike_self h)
  | .conditional c t yes no =>
    .conditional (c.alike_self h) (h.token t) (yes.alike_self h) (no.alike_self h)
  | .lambda f => .lambda (f.alike_self h)
  | .comma l t r => .comma (l.alike_self h) (h.token t) (r.alike_self h)
  | .binary l t r => .binary (l.alike_self h) (h.token t) (r.alike_self h)
  | .logical l t r => .logical (l.alike_self h) (h.token t) (r.alike_self h)
  | .unary t e => .unary (h.token t) (e.alike_self h)
  | .call callee t es => .call (callee.alike_self h) (h.token t) (alikeExprs_self h es)
  | .this r => .this (h.use r)
  | .super r t => .super (h.use r) (h.token t)
  | .grouping t e => .grouping (h.token t) (e.alike_self h)
  | .list t es => .list (h.token t) (alikeExprs_self h es)
  | .invalid t => .invalid (h.token t)

lemma alikeExprs_self (h : K.Reflexive γ) : (es : List Expr) → AlikeExprs K γ es es
  | [] => .nil
  | e :: es => .cons (e.alike_self h) (alikeExprs_self h es)

lemma Stmt.alike_self (h : K.Reflexive γ) : (s : Stmt) → s.Alike K γ s
  | .expression _ e => .expression (e.alike_self h)
  | .print t e => .print (h.token t) (e.alike_self h)
  | .var t none => .declare (h.binder t)
  | .var t (some e) => .define (h.binder t) (e.alike_self h)
  | .block _ body => .block h.enter (alikeStmts_self h body)
  | .ifElse t c yes none => .ifOnly (h.token t) (c.alike_self h) (yes.alike_self h)
  | .ifElse t c yes (some no) =>
    .ifElse (h.token t) (c.alike_self h) (yes.alike_self h) (no.alike_self h)
  | .whileLoop t c body => .whileLoop (h.loop t) (c.alike_self h) (body.alike_self h)
  | .breakLoop t => .breakLoop (h.token t)
  | .returnValue t none => .returnNothing (h.token t)
  | .returnValue t (some e) => .returnValue (h.token t) (e.alike_self h)
  | .function f => .function (h.title f.head) (f.alike_self h)
  | .classDecl t parent _ ms ss =>
    .classDecl (h.title t) (optionRel_same h.use parent)
      ((h.members _).symm ▸ alikeMembers_self h ms) ((h.members _).symm ▸ alikeMembers_self h ss)
  | .invalid t => .invalid (h.token t)

lemma alikeStmts_self (h : K.Reflexive γ) : (body : List Stmt) → AlikeStmts K γ body body
  | [] => .nil
  | s :: body => .cons (s.alike_self h) (alikeStmts_self h body)

lemma Function.alike_self (h : K.Reflexive γ) : (f : Function) → f.Alike K γ f
  | .mk head params _ body =>
    have hnames : ∀ p : Params, List.Forall₂ (K.binder γ) p.names p.names :=
      fun p => List.forall₂_same.mpr fun t _ => h.binder t
    have hparams : Option.Rel (fun p p' : Params => List.Forall₂ (K.binder γ) p.names p'.names)
        params params := by
      cases params with
      | none => exact .none
      | some p => exact .some (hnames p)
    .mk (h.token head) h.enter hparams (alikeStmts_self h body)

lemma alikeMembers_self (h : K.Reflexive γ) : (ms : List Function) → AlikeMembers K γ ms ms
  | [] => .nil
  | m :: ms => .cons (m.alike_self h) (alikeMembers_self h ms)

end

end Trees

def Naming.plain (V : Variation) (known : FrameId → Prop) : Naming V := ⟨known, fun _ => V.plain⟩

end Lox
