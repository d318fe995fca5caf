import Lox.Syntax
import Mathlib.Tactic.Lemma

namespace Lox

mutual

def Expr.same : Expr → Expr → Bool
  | .literal t v, .literal t' v' => t == t' && decide (v = v')
  | .ref r, .ref r' => r == r'
  | .assign r e l, .assign r' e' l' => r == r' && e.same e' && l == l'
  | .get e t, .get e' t' => e.same e' && t == t'
  | .set o t e l, .set o' t' e' l' => o.same o' && t == t' && e.same e' && l == l'
  | .conditional c t y n, .conditional c' t' y' n' => c.same c' && t == t' && y.same y' && n.same n'
  | .lambda f, .lambda f' => f.same f'
  | .comma a t b, .comma a' t' b' => a.same a' && t == t' && b.same b'
  | .binary a t b, .binary a' t' b' => a.same a' && t == t' && b.same b'
  | .logical a t b, .logical a' t' b' => a.same a' && t == t' && b.same b'
  | .unary t e, .unary t' e' => t == t' && e.same e'
  | .call e t es, .call e' t' es' => e.same e' && t == t' && sameExprs es es'
  | .this r, .this r' => r == r'
  | .super r t, .super r' t' => r == r' && t == t'
  | .grouping t e, .grouping t' e' => t == t' && e.same e'
  | .list t es, .list t' es' => t == t' && sameExprs es es'
  | .invalid t, .invalid t' => t == t'
  | _, _ => false

def sameExprs : List Expr → List Expr → Bool
  | [], [] => true
  | e :: es, e' :: es' => e.same e' && sameExprs es es'
  | _, _ => false

def Stmt.same : Stmt → Stmt → Bool
  | .expression l e, .expression l' e' => l == l' && e.same e'
  | .print t e, .print t' e' => t == t' && e.same e'
  | .var t none, .var t' none => t == t'
  | .var t (some e), .var t' (some e') => t == t' && e.same e'
  | .block l ss, .block l' ss' => l == l' && sameStmts ss ss'
  | .ifElse t c y none, .ifElse t' c' y' none => t == t' && c.same c' && y.same y'
  | .ifElse t c y (some n), .ifElse t' c' y' (some n') =>
    t == t' && c.same c' && y.same y' && n.same n'
  | .whileLoop t c b, .whileLoop t' c' b' => t == t' && c.same c' && b.same b'
  | .breakLoop t, .breakLoop t' => t == t'
  | .returnValue t none, .returnValue t' none => t == t'
  | .returnValue t (some e), .returnValue t' (some e') => t == t' && e.same e'
  | .function f, .function f' => f.same f'
  | .classDecl t r l ms ss, .classDecl t' r' l' ms' ss' =>
    t == t' && r == r' && l == l' && sameMembers ms ms' && sameMembers ss ss'
  | .invalid t, .invalid t' => t == t'
  | _, _ => false

def sameStmts : List Stmt → List Stmt → Bool
  | [], [] => true
  | s :: ss, s' :: ss' => s.same s' && sameStmts ss ss'
  | _, _ => false

def Function.same : Function → Function → Bool
  | .mk t ps l b, .mk t' ps' l' b' => t == t' && ps == ps' && l == l' && sameStmts b b'

def sameMembers : List Function → List Function → Bool
  | [], [] => true
  | f :: fs, f' :: fs' => f.same f' && sameMembers fs fs'
  | _, _ => false

end

mutual

lemma Expr.eq_of_same : (e u : Expr) → e.same u = true → e = u
  | .literal t v, u, h => by
    cases u with
    | literal =>
      simp only [Expr.same, Bool.and_eq_true, beq_iff_eq, decide_eq_true_eq] at h
      rw [h.1, h.2]
    | _ => simp only [Expr.same, reduceCtorEq] at h
  | .ref r, u, h => by
    cases u with
    | ref =>
      simp only [Expr.same, beq_iff_eq] at h
      rw [h]
    | _ => simp only [Expr.same, reduceCtorEq] at h
  | .assign r e l, u, h => by
    cases u with
    | assign =>
      simp only [Expr.same, Bool.and_eq_true, beq_iff_eq] at h
      rw [h.1.1, e.eq_of_same _ h.1.2, h.2]
    | _ => simp only [Expr.same, reduceCtorEq] at h
  | .get e t, u, h => by
    cases u with
    | get =>
      simp only [Expr.same, Bool.and_eq_true, beq_iff_eq] at h
      rw [e.eq_of_same _ h.1, h.2]
    | _ => simp only [Expr.same, reduceCtorEq] at h
  | .set o t e l, u, h => by
    cases u with
    | set =>
      simp only [Expr.same, Bool.and_eq_true, beq_iff_eq] at h
      rw [o.eq_of_same _ h.1.1.1, h.1.1.2, e.eq_of_same _ h.1.2, h.2]
    | _ => simp only [Expr.same, reduceCtorEq] at h
  | .conditional c t y n, u, h => by
    cases u with
    | conditional =>
      simp only [Expr.same, Bool.and_eq_true, beq_iff_eq] at h
      rw [c.eq_of_same _ h.1.1.1, h.1.1.2, y.eq_of_same _ h.1.2, n.eq_of_same _ h.2]
    | _ => simp only [Expr.same, reduceCtorEq] at h
  | .lambda f, u, h => by
    cases u with
    | lambda =>
      simp only [Expr.same] at h
      rw [f.eq_of_same _ h]
    | _ => simp only [Expr.same, reduceCtorEq] at h
  | .comma a t b, u, h => by
    cases u with
    | comma =>
      simp only [Expr.same, Bool.and_eq_true, beq_iff_eq] at h
      rw [a.eq_of_same _ h.1.1, h.1.2, b.eq_of_same _ h.2]
    | _ => simp only [Expr.same, reduceCtorEq] at h
  | .binary a t b, u, h => by
    cases u with
    | binary =>
      simp only [Expr.same, Bool.and_eq_true, beq_iff_eq] at h
      rw [a.eq_of_same _ h.1.1, h.1.2, b.eq_of_same _ h.2]
    | _ => simp only [Expr.same, reduceCtorEq] at h
  | .logical a t b, u, h => by
    cases u with
    | logical =>
      simp only [Expr.same, Bool.and_eq_true, beq_iff_eq] at h
      rw [a.eq_of_same _ h.1.1, h.1.2, b.eq_of_same _ h.2]
    | _ => simp only [Expr.same, reduceCtorEq] at h
  | .unary t e, u, h => by
    cases u with
    | unary =>
      simp only [Expr.same, Bool.and_eq_true, beq_iff_eq] at h
      rw [h.1, e.eq_of_same _ h.2]
    | _ => simp only [Expr.same, reduceCtorEq] at h
  | .call e t es, u, h => by
    cases u with
    | call =>
      simp only [Expr.same, Bool.and_eq_true, beq_iff_eq] at h
      rw [e.eq_of_same _ h.1.1, h.1.2, eq_of_sameExprs _ _ h.2]
    | _ => simp only [Expr.same, reduceCtorEq] at h
  | .this r, u, h => by
    cases u with
    | this =>
      simp only [Expr.same, beq_iff_eq] at h
      rw [h]
    | _ => simp only [Expr.same, reduceCtorEq] at h
  | .super r t, u, h => by
    cases u with
    | super =>
      simp only [Expr.same, Bool.and_eq_true, beq_iff_eq] at h
      rw [h.1, h.2]
    | _ => simp only [Expr.same, reduceCtorEq] at h
  | .grouping t e, u, h => by
    cases u with
    | grouping =>
      simp only [Expr.same, Bool.and_eq_true, beq_iff_eq] at h
      rw [h.1, e.eq_of_same _ h.2]
    | _ => simp only [Expr.same, reduceCtorEq] at h
  | .list t es, u, h => by
    cases u with
    | list =>
      simp only [Expr.same, Bool.and_eq_true, beq_iff_eq] at h
      rw [h.1, eq_of_sameExprs _ _ h.2]
    | _ => simp only [Expr.same, reduceCtorEq] at h
  | .invalid t, u, h => by
    cases u with
    | invalid =>
      simp only [Expr.same, beq_iff_eq] at h
      rw [h]
    | _ => simp only [Expr.same, reduceCtorEq] at h

lemma eq_of_sameExprs : (es us : List Expr) → sameExprs es us = true → es = us
  | [], [], _ => rfl
  | [], _ :: _, h => by simp [sameExprs] at h
  | _ :: _, [], h => by simp [sameExprs] at h
  | e :: es, u :: us, h => by
    simp only [sameExprs, Bool.and_eq_true] at h
    rw [e.eq_of_same u h.1, eq_of_sameExprs es us h.2]

lemma Stmt.eq_of_same : (st u : Stmt) → st.same u = true → st = u
  | .expression l e, u, h => by
    cases u with
    | expression =>
      simp only [Stmt.same, Bool.and_eq_true, beq_iff_eq] at h
      rw [h.1, e.eq_of_same _ h.2]
    | _ => simp only [Stmt.same, reduceCtorEq] at h
  | .print t e, u, h => by
    cases u with
    | print =>
      simp only [Stmt.same, Bool.and_eq_true, beq_iff_eq] at h
      rw [h.1, e.eq_of_same _ h.2]
    | _ => simp only [Stmt.same, reduceCtorEq] at h
  | .block l ss, u, h => by
    cases u with
    | block =>
      simp only [Stmt.same, Bool.and_eq_true, beq_iff_eq] at h
      rw [h.1, eq_of_sameStmts _ _ h.2]
    | _ => simp only [Stmt.same, reduceCtorEq] at h
  | .whileLoop t c b, u, h => by
    cases u with
    | whileLoop =>
      simp only [Stmt.same, Bool.and_eq_true, beq_iff_eq] at h
      rw [h.1.1, c.eq_of_same _ h.1.2, b.eq_of_same _ h.2]
    | _ => simp only [Stmt.same, reduceCtorEq] at h
  | .breakLoop t, u, h => by
    cases u with
    | breakLoop =>
      simp only [Stmt.same, beq_iff_eq] at h
      rw [h]
    | _ => simp only [Stmt.same, reduceCtorEq] at h
  | .function f, u, h => by
    cases u with
    | function =>
      simp only [Stmt.same] at h
      rw [f.eq_of_same _ h]
    | _ => simp only [Stmt.same, reduceCtorEq] at h
  | .classDecl t r l ms ss, u, h => by
    cases u with
    | classDecl =>
      simp only [Stmt.same, Bool.and_eq_true, beq_iff_eq] at h
      rw [h.1.1.1.1, h.1.1.1.2, h.1.1.2, eq_of_sameMembers _ _ h.1.2, eq_of_sameMembers _ _ h.2]
    | _ => simp only [Stmt.same, reduceCtorEq] at h
  | .invalid t, u, h => by
    cases u with
    | invalid =>
      simp only [Stmt.same, beq_iff_eq] at h
      rw [h]
    | _ => simp only [Stmt.same, reduceCtorEq] at h
  | .var t none, u, h => by
    cases u with
    | var _ last =>
      cases last with
      | none =>
        simp only [Stmt.same, beq_iff_eq] at h
        rw [h]
      | some _ => simp [Stmt.same] at h
    | _ => simp only [Stmt.same, reduceCtorEq] at h
  | .var t (some e), u, h => by
    cases u with
    | var _ last =>
      cases last with
      | none => simp [Stmt.same] at h
      | some _ =>
        simp only [Stmt.same, Bool.and_eq_true, beq_iff_eq] at h
        rw [h.1, e.eq_of_same _ h.2]
    | _ => simp only [Stmt.same, reduceCtorEq] at h
  | .returnValue t none, u, h => by
    cases u with
    | returnValue _ last =>
      cases last with
      | none =>
        simp only [Stmt.same, beq_iff_eq] at h
        rw [h]
      | some _ => simp [Stmt.same] at h
    | _ => simp only [Stmt.same, reduceCtorEq] at h
  | .returnValue t (some e), u, h => by
    cases u with
    | returnValue _ last =>
      cases last with
      | none => simp [Stmt.same] at h
      | some _ =>
        simp only [Stmt.same, Bool.and_eq_true, beq_iff_eq] at h
        rw [h.1, e.eq_of_same _ h.2]
    | _ => simp only [Stmt.same, reduceCtorEq] at h
  | .ifElse t c y none, u, h => by
    cases u with
    | ifElse _ _ _ last =>
      cases last with
      | none =>
        simp only [Stmt.same, Bool.and_eq_true, beq_iff_eq] at h
        rw [h.1.1, c.eq_of_same _ h.1.2, y.eq_of_same _ h.2]
      | some _ => simp [Stmt.same] at h
    | _ => simp only [Stmt.same, reduceCtorEq] at h
  | .ifElse t c y (some n), u, h => by
    cases u with
    | ifElse _ _ _ last =>
      cases last with
      | none => simp [Stmt.same] at h
      | some _ =>
        simp only [Stmt.same, Bool.and_eq_true, beq_iff_eq] at h
        rw [h.1.1.1, c.eq_of_same _ h.1.1.2, y.eq_of_same _ h.1.2, n.eq_of_same _ h.2]
    | _ => simp only [Stmt.same, reduceCtorEq] at h

lemma eq_of_sameStmts : (ss us : List Stmt) → sameStmts ss us = true → ss = us
  | [], [], _ => rfl
  | [], _ :: _, h => by simp [sameStmts] at h
  | _ :: _, [], h => by simp [sameStmts] at h
  | st :: ss, u :: us, h => by
    simp only [sameStmts, Bool.and_eq_true] at h
    rw [st.eq_of_same u h.1, eq_of_sameStmts ss us h.2]

lemma Function.eq_of_same : (f u : Function) → f.same u = true → f = u
  | .mk t ps l b, .mk _ _ _ _, h => by
    simp only [Function.same, Bool.and_eq_true, beq_iff_eq] at h
    rw [h.1.1.1, h.1.1.2, h.1.2, eq_of_sameStmts b _ h.2]

lemma eq_of_sameMembers : (fs us : List Function) → sameMembers fs us = true → fs = us
  | [], [], _ => rfl
  | [], _ :: _, h => by simp [sameMembers] at h
  | _ :: _, [], h => by simp [sameMembers] at h
  | f :: fs, u :: us, h => by
    simp only [sameMembers, Bool.and_eq_true] at h
    rw [f.eq_of_same u h.1, eq_of_sameMembers fs us h.2]

end

end Lox
