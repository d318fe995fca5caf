import Mathlib.Logic.Equiv.Basic
import Lox.Proofs.Alike.Shift
import Lox.Proofs.Scope.Distinct
import Lox.Proofs.Scope.Occurrence
import Lox.Proofs.Token.Reword

namespace Lox

open Resolver

lemma Stmt.varName?_eq_none {s : Stmt} (h : s.declared? = none) : s.varName? = none := by
  cases s with
  | var => cases h
  | _ => rfl

lemma Stmt.varName?_subset (body : List Stmt) :
    body.filterMap varName? ⊆ body.filterMap declared? := by
  intro t ht
  obtain ⟨s, hs, hvariable⟩ := List.mem_filterMap.mp ht
  refine List.mem_filterMap.mpr ⟨s, hs, ?_⟩
  cases s with
  | var => exact hvariable
  | _ => cases hvariable

/-- A declaration with its occurrences, and a name for them that a program may declare. -/
structure Respelling where
  declared : Token
  occurrences : List Token
  name : String
  mem : declared ∈ occurrences
  kind : ∀ t ∈ occurrences, t.kind = .identifier
  isName : declared.IsName
  name_ne : name ∉ ["this", "super", "true"]

namespace Respelling

variable (R : Respelling)

def variation : Variation where
  place t t' := t.line = t'.line
  loop t t' := t'.kind = t.kind ∧ t'.lexeme = t.lexeme ∧ t.line = t'.line
  Renames r := r = id ∨ r = Equiv.swap R.declared.lexeme R.name
  Occurs n := n ≠ R.name
  place_of_loop h := h.2.2
  loop_of_place hkind hlexeme hline := ⟨hkind, hlexeme, hline⟩
  place_this := id
  renames_id := .inl rfl
  injective := by
    rintro r (rfl | rfl)
    · exact Function.injective_id
    · exact Equiv.injective _
  this := by
    rintro r (rfl | rfl)
    · rfl
    · exact Equiv.swap_apply_of_ne_of_ne (Ne.symm R.isName.2.1) fun h => R.name_ne (by simp [← h])
  super := by
    rintro r (rfl | rfl)
    · rfl
    · exact Equiv.swap_apply_of_ne_of_ne (Ne.symm R.isName.2.2) fun h => R.name_ne (by simp [← h])
  occurs_this h := R.name_ne (by simp [← h])
  occurs_super h := R.name_ne (by simp [← h])
  apart := by
    have hmixed : ∀ {n n'}, n ≠ R.name → n' ≠ R.name →
        Equiv.swap R.declared.lexeme R.name n = n' → n = n' := by
      intro n n' hn hn' heq
      by_cases hx : n = R.declared.lexeme
      · rw [hx, Equiv.swap_apply_left] at heq
        exact absurd heq.symm hn'
      · rwa [Equiv.swap_apply_of_ne_of_ne hx hn] at heq
    rintro r r' n n' (rfl | rfl) (rfl | rfl) hn hn' heq
    · exact heq
    · exact (hmixed hn' hn heq.symm).symm
    · exact hmixed hn hn' heq
    · exact Equiv.injective _ heq

def exchange : R.variation.Renaming := ⟨Equiv.swap R.declared.lexeme R.name, .inr rfl⟩

def names (marks : List Bool) : R.variation.Names :=
  fun depth => if marks.getD depth false then R.exchange else R.variation.same

lemma names_cons (b : Bool) (marks : List Bool) :
    R.names (b :: marks) = .cons (R.names [b] 0) (R.names marks) := by
  funext depth
  cases depth <;> rfl

lemma names_memberMarks (hasSuper : Bool) (marks : List Bool) :
    R.names (memberMarks hasSuper marks) =
      .cons R.variation.same (if hasSuper then .cons R.variation.same (R.names marks)
        else R.names marks) := by
  cases hasSuper
  · exact R.names_cons false marks
  · exact (R.names_cons false _).trans (congrArg _ (R.names_cons false marks))

lemma names_apply (marks : List Bool) (depth : Nat) {n : String} (hn : n ≠ R.name) :
    (R.names marks depth).val n =
      if n = R.declared.lexeme ∧ marks.getD depth false = true then R.name else n := by
  unfold names
  cases marks.getD depth false with
  | false => simp [Variation.same]
  | true =>
    by_cases hx : n = R.declared.lexeme
    · rw [if_pos rfl, if_pos ⟨hx, rfl⟩, hx]
      exact Equiv.swap_apply_left _ _
    · rw [if_pos rfl, if_neg fun h => hx h.1]
      exact Equiv.swap_apply_of_ne_of_ne hx hn

def Paired (pairs : List (Token × Token)) (t t' : Token) : Prop :=
  t.Respelled R.occurrences R.name t' ∧ t.lexeme ≠ R.name ∧
    (t.kind = .identifier → (t, t') ∈ pairs)

def Tags (l : Tagged) : Prop :=
  ∀ x ∈ l, x.1.kind = .identifier → (x.1 ∈ R.occurrences ↔ x.2 = true)

structure Owns (marks : List Bool) (vars ts : List Token) : Prop where
  -- Where the declaration belongs to the scope, it is the only one of its name there.
  unique : marks.getD 0 false = true → ∀ t ∈ ts, t.lexeme = R.declared.lexeme → t = R.declared
  owned : marks ≠ [] → R.declared ∈ vars → marks.getD 0 false = true

variable {R} {pairs : List (Token × Token)} {l l' : Tagged} {t t' : Token} {marks : List Bool}

namespace Tags

lemma left (h : R.Tags (l ++ l')) : R.Tags l := (List.forall_mem_append.mp h).1

lemma right (h : R.Tags (l ++ l')) : R.Tags l' := (List.forall_mem_append.mp h).2

lemma tail {x : Token × Bool} (h : R.Tags (x :: l)) : R.Tags l := (List.forall_mem_cons.mp h).2

theorem not_mem (h : R.Tags ((t, false) :: l)) : t ∉ R.occurrences := fun hmem =>
  Bool.false_ne_true ((h _ List.mem_cons_self (R.kind t hmem)).mp hmem)

end Tags

namespace Paired

variable (h : R.Paired pairs t t')

include h

lemma alike {r : String → String}
    (hr : (if t ∈ R.occurrences then R.name else t.lexeme) = r t.lexeme) :
    Token.Alike R.variation r t t' :=
  ⟨h.1.kind, h.1.lexeme.trans hr, h.1.line.symm⟩

lemma alike_of_not_mem (ht : t ∉ R.occurrences) : Token.Alike R.variation id t t' :=
  h.alike (if_neg ht)

theorem use {r : Reference} (hr : r.name = t) (hk : t.kind = .identifier)
    (hm : R.Tags (r.tagged R.declared marks :: l)) :
    Token.Alike R.variation (Variation.Names.under (R.names marks) r.depth) t t' := by
  subst hr
  have hstands : r.name ∈ R.occurrences ↔ r.standsFor R.declared marks = true :=
    hm _ List.mem_cons_self hk
  refine h.alike ?_
  rw [Reference.standsFor, Bool.and_eq_true, decide_eq_true_eq] at hstands
  cases hd : r.depth with
  | none =>
    rw [hd] at hstands
    exact if_neg fun hmem => Bool.false_ne_true (hstands.mp hmem).2
  | some depth =>
    rw [hd] at hstands
    exact (if_congr hstands rfl rfl).trans (R.names_apply marks depth h.2.1).symm

theorem binder (hk : t.kind = .identifier)
    (hm : R.Tags (Tagged.binder R.declared marks t :: l)) (hd : R.Owns marks [t] [t]) :
    Token.Alike R.variation (R.names marks 0).val t t' := by
  have hstands : t ∈ R.occurrences ↔ (!marks.isEmpty && t = R.declared) = true :=
    hm _ List.mem_cons_self hk
  rw [Bool.and_eq_true, decide_eq_true_eq, Bool.not_eq_true', List.isEmpty_eq_false_iff] at hstands
  refine h.alike ?_
  rw [R.names_apply marks 0 h.2.1]
  refine if_congr (hstands.trans ⟨fun ⟨hne, ht⟩ => ?_, fun ⟨ht, hmark⟩ => ?_⟩) rfl rfl
  · exact ⟨congrArg _ ht, hd.owned hne (List.mem_singleton.mpr ht.symm)⟩
  · refine ⟨?_, hd.unique hmark t List.mem_cons_self ht⟩
    rintro rfl
    cases hmark

theorem title {vars : List Token} (hm : R.Tags ((t, false) :: l)) (hd : R.Owns marks vars [t]) :
    (R.names marks 0).val t.lexeme = t.lexeme := by
  rw [R.names_apply marks 0 h.2.1]
  refine if_neg fun ⟨ht, hmark⟩ => hm.not_mem ?_
  rw [hd.unique hmark t List.mem_cons_self ht]
  exact R.mem

theorem reserved {depth : Option Nat} (hm : R.Tags ((t, false) :: l))
    (ht : t.lexeme = "this" ∨ t.lexeme = "super") :
    Token.Alike R.variation (Variation.Names.under (R.names marks) depth) t t' := by
  have hrenames := Variation.Names.renames_under (R.names marks) depth
  refine h.alike ((if_neg hm.not_mem).trans ?_)
  rcases ht with ht | ht
  · rw [ht, R.variation.this hrenames]
  · rw [ht, R.variation.super hrenames]

end Paired

lemma Owns.mono {vars vars' ts ts' : List Token} (h : R.Owns marks vars ts)
    (hvars : vars' ⊆ vars) (hts : ts' ⊆ ts) : R.Owns marks vars' ts' :=
  ⟨fun hmark _ ht => h.unique hmark _ (hts ht), fun hne hmem => h.owned hne (hvars hmem)⟩

theorem owns_scope {status : String → Option Bool} {params : List Token} {body body' : List Stmt}
    (h : Fresh status (params ++ body.filterMap Stmt.declared?))
    (hbody : body'.filterMap Stmt.varName? = body.filterMap Stmt.varName?) :
    R.Owns (ownsScope R.declared params body' :: marks) (params ++ body.filterMap Stmt.varName?)
      (params ++ body.filterMap Stmt.declared?) := by
  have hown : ownsScope R.declared params body' = true ↔
      R.declared ∈ params ++ body.filterMap Stmt.varName? := by
    rw [ownsScope, decide_eq_true_eq, hbody]
  refine ⟨fun hmark t ht hl => h.eq_of_lexeme ht ?_ hl, fun _ hmem => hown.mpr hmem⟩
  rcases List.mem_append.mp (hown.mp hmark) with hparam | hvar
  · exact List.mem_append_left _ hparam
  · exact List.mem_append_right _ (Stmt.varName?_subset body hvar)

end Respelling

abbrev Respelling.likeness (R : Respelling) (pairs : List (Token × Token)) :
    Likeness R.variation.Names :=
  R.variation.unresolved fun t t' => (t, t') ∈ pairs

section

variable {R : Respelling} {pairs : List (Token × Token)}

lemma Site.Sound.operands {p : Site} {e : Expr} (h : p.Sound (.expr e)) :
    p.Sound (.exprs e.operands) := Enters.operands.sound h

lemma Site.Sound.head {p : Site} {e : Expr} {es : List Expr} (h : p.Sound (.exprs (e :: es))) :
    p.Sound (.expr e) := Enters.headExpr.sound h

lemma Site.Sound.tail {p : Site} {e : Expr} {es : List Expr} (h : p.Sound (.exprs (e :: es))) :
    (p.afterExpr e).Sound (.exprs es) := Enters.tailExprs.sound h

lemma Respelling.use_alike {s r r' : Reference} {marks : List Bool} {l : Tagged}
    (h : (Likeness.ofTokens (R.Paired pairs)).use () r r') (hs : s.name = r.name)
    (hk : r.name.IsName) (hm : R.Tags (s.tagged R.declared marks :: l)) :
    (R.likeness pairs).use (R.names marks) s r' := by
  have ht := h.1.use hs hk.1 hm
  rw [← hs] at ht
  refine ⟨ht, ?_, h.2⟩
  rw [hs]
  exact h.1.2.1

lemma Respelling.superclass_alike {name : Token} {parent parent' : Option Reference}
    {σ : Scopes} {marks : List Bool}
    (h : Option.Rel ((Likeness.ofTokens (R.Paired pairs)).use ()) parent parent')
    (hk : ∀ r ∈ parent, r.IsFresh ∧ r.name.IsName)
    (hm : R.Tags (((resolveSuperclass name parent).result σ).map
      (Reference.tagged R.declared marks)).toList) :
    Option.Rel ((R.likeness pairs).use (R.names marks)) ((resolveSuperclass name parent).result σ)
      parent' := by
  have hname := name_resolveSuperclass name parent σ
  generalize (resolveSuperclass name parent).result σ = s at hm hname ⊢
  cases h with
  | none =>
    cases s with
    | none => exact .none
    | some => cases hname
  | @some r _ hr =>
    cases s with
    | none => cases hname
    | some s => exact .some (use_alike hr (Option.some.inj hname) (hk r rfl).2 hm)

lemma Respelling.reserved_alike {s r r' : Reference} {marks : List Bool} {l : Tagged}
    (h : (Likeness.ofTokens (R.Paired pairs)).use () r r') (hs : s.name = r.name)
    (hr : r.name.lexeme = "this" ∨ r.name.lexeme = "super")
    (hm : R.Tags ((s.name, false) :: l)) : (R.likeness pairs).use (R.names marks) s r' := by
  rw [hs] at hm
  have ht : Token.Alike R.variation (Variation.Names.under (R.names marks) s.depth) _ _ :=
    h.1.reserved hm hr
  rw [← hs] at ht
  refine ⟨ht, ?_, h.2⟩
  rw [hs]
  exact h.1.2.1

lemma Respelling.binder_alike {t t' : Token} {marks : List Bool} {l : Tagged}
    (h : (Likeness.ofTokens (R.Paired pairs)).binder () t t')
    (hm : R.Tags (Tagged.binder R.declared marks t :: l)) (hd : R.Owns marks [t] [t]) :
    (R.likeness pairs).binder (R.names marks) t t' :=
  ⟨h.1.binder h.2 hm hd, h.1.2.1, h.1.2.2 h.2⟩

lemma Respelling.title_alike {t t' : Token} {marks : List Bool} {l : Tagged}
    {vars : List Token} (h : (Likeness.ofTokens (R.Paired pairs)).title () t t')
    (hm : R.Tags ((t, false) :: l)) (hd : R.Owns marks vars [t]) :
    (R.likeness pairs).title (R.names marks) t t' :=
  ⟨h.1.alike_of_not_mem hm.not_mem, h.1.title hm hd, h.1.2.1, h.1.2.2 h.2⟩

lemma Respelling.params_alike {ps ps' : List Token} {marks : List Bool}
    (h : List.Forall₂ ((Likeness.ofTokens (R.Paired pairs)).binder ()) ps ps')
    (hm : R.Tags (ps.map (Tagged.binder R.declared marks))) (hd : R.Owns marks ps ps) :
    List.Forall₂ ((R.likeness pairs).binder (R.names marks)) ps ps' := by
  induction h with
  | nil => exact .nil
  | cons ht _ ih =>
    exact .cons (binder_alike ht hm (hd.mono (by simp) (by simp)))
      (ih hm.tail (hd.mono (by simp) (by simp)))

theorem Respelling.owns_branch {s : Stmt} {marks : List Bool} (h : s.declares = false) :
    R.Owns marks s.varName?.toList s.declared?.toList := by
  have hnone := s.declared?_of_declares h
  rw [hnone, s.varName?_eq_none hnone]
  exact ⟨fun _ _ ht => absurd ht List.not_mem_nil, fun _ ht => absurd ht List.not_mem_nil⟩

theorem Site.filterMap_varName? (p : Site) (body : List Stmt) :
    (p.stmts body).filterMap Stmt.varName? = body.filterMap Stmt.varName? := by
  induction body generalizing p with
  | nil => rfl
  | cons s body ih =>
    have hstmt : (p.stmt s).varName? = s.varName? := by
      cases s with
      | var _ init => cases init <;> rfl
      | ifElse _ _ _ no => cases no <;> rfl
      | returnValue _ value => cases value <;> rfl
      | classDecl => rw [stmt_classDecl]; rfl
      | _ => rfl
    change ((p.stmt s) :: (p.afterStmt s).stmts body).filterMap _ = _
    rw [List.filterMap_cons, List.filterMap_cons, hstmt, ih]

lemma subset_filterMap_cons {α β : Type} (f : α → Option β) (x : α) (xs : List α) :
    (f x).toList ⊆ (x :: xs).filterMap f ∧ xs.filterMap f ⊆ (x :: xs).filterMap f := by
  rw [List.filterMap_cons]
  cases f x with
  | none => exact ⟨List.nil_subset _, List.Subset.refl _⟩
  | some y => exact ⟨by simp, List.subset_cons_self _ _⟩

mutual

lemma Expr.Alike.renamed : (e e' : Expr) → e.AlikeIn (R.Paired pairs) e' → (p : Site) →
    p.Sound (.expr e) → (marks : List Bool) → R.Tags ((p.expr e).tagged R.declared marks) →
      (p.expr e).Alike (R.likeness pairs) (R.names marks) e'
  | .literal _ _, _, .literal ht, _, _, _, hm => .literal (ht.alike_of_not_mem hm.not_mem)
  | .ref r, _, .ref hr, p, hp, _, hm =>
    .ref (Respelling.use_alike hr (name_readName r p.scopes) hp.wellFormed.2 hm)
  | .assign r value _, _, .assign hr hv, p, hp, marks, hm =>
    .assign (Respelling.use_alike hr (name_find r false _) hp.wellFormed.2.1 hm)
      (hv.renamed value _ p hp.operands.head marks hm.tail)
  | .get object _, _, .get ho ht, p, hp, marks, hm =>
    .get (ho.renamed object _ p hp.operands.head marks hm.left)
      (ht.alike_of_not_mem hm.right.not_mem)
  | .set object _ value _, _, .set ho ht hv, p, hp, marks, hm =>
    .set (ho.renamed object _ p hp.operands.head marks hm.left)
      (ht.alike_of_not_mem hm.right.not_mem)
      (hv.renamed value _ _ hp.operands.tail.head marks hm.right.tail)
  | .conditional c _ yes no, _, .conditional hc ht hy hn, p, hp, marks, hm =>
    .conditional (hc.renamed c _ p hp.operands.head marks hm.left)
      (ht.alike_of_not_mem hm.right.not_mem)
      (hy.renamed yes _ _ hp.operands.tail.head marks hm.right.tail.left)
      (hn.renamed no _ _ hp.operands.tail.tail.head marks hm.right.tail.right)
  | .lambda f, _, .lambda hf, p, hp, marks, hm =>
    .lambda (hf.renamed f _ .ordinary p (Enters.lambda.sound hp) marks hm)
  | .comma l _ r, _, .comma hl ht hr, p, hp, marks, hm =>
    .comma (hl.renamed l _ p hp.operands.head marks hm.left)
      (ht.alike_of_not_mem hm.right.not_mem)
      (hr.renamed r _ _ hp.operands.tail.head marks hm.right.tail)
  | .binary l _ r, _, .binary hl ht hr, p, hp, marks, hm =>
    .binary (hl.renamed l _ p hp.operands.head marks hm.left)
      (ht.alike_of_not_mem hm.right.not_mem)
      (hr.renamed r _ _ hp.operands.tail.head marks hm.right.tail)
  | .logical l _ r, _, .logical hl ht hr, p, hp, marks, hm =>
    .logical (hl.renamed l _ p hp.operands.head marks hm.left)
      (ht.alike_of_not_mem hm.right.not_mem)
      (hr.renamed r _ _ hp.operands.tail.head marks hm.right.tail)
  | .unary _ e, _, .unary ht he, p, hp, marks, hm =>
    .unary (ht.alike_of_not_mem hm.not_mem) (he.renamed e _ p hp.operands.head marks hm.tail)
  | .call callee _ es, _, .call hc ht hes, p, hp, marks, hm =>
    .call (hc.renamed callee _ p hp.operands.head marks hm.left)
      (ht.alike_of_not_mem hm.right.not_mem)
      (hes.renamed es _ _ hp.operands.tail marks hm.right.tail)
  | .this r, _, .this hr, p, hp, _, hm =>
    .this (Respelling.reserved_alike hr (name_readThis p.around r p.scopes)
      (.inl hp.wellFormed.2) hm)
  | .super r _, _, .super hr ht, p, hp, _, hm =>
    .super (Respelling.reserved_alike hr (name_readSuper p.around r p.scopes)
      (.inr hp.wellFormed.2.1) hm) (ht.alike_of_not_mem hm.tail.not_mem)
  | .grouping _ e, _, .grouping ht he, p, hp, marks, hm =>
    .grouping (ht.alike_of_not_mem hm.not_mem) (he.renamed e _ p hp.operands.head marks hm.tail)
  | .list _ es, _, .list ht hes, p, hp, marks, hm =>
    .list (ht.alike_of_not_mem hm.not_mem) (hes.renamed es _ p hp.operands marks hm.tail)
  | .invalid _, _, .invalid _, _, hp, _, _ => hp.wellFormed.elim
termination_by structural x => x

lemma AlikeExprs.renamed : (es es' : List Expr) →
    AlikeExprs (.ofTokens (R.Paired pairs)) () es es' → (p : Site) → p.Sound (.exprs es) →
      (marks : List Bool) → R.Tags (taggedExprs R.declared marks (p.exprs es)) →
      AlikeExprs (R.likeness pairs) (R.names marks) (p.exprs es) es'
  | [], _, .nil, _, _, _, _ => .nil
  | e :: es, _, .cons he hes, p, hp, marks, hm =>
    .cons (he.renamed e _ p hp.head marks hm.left) (hes.renamed es _ _ hp.tail marks hm.right)
termination_by structural x => x

lemma Stmt.Alike.renamed : (s s' : Stmt) → s.AlikeIn (R.Paired pairs) s' → (p : Site) →
    p.Sound (.stmt s) → (marks : List Bool) → R.Tags ((p.stmt s).tagged R.declared marks) →
      R.Owns marks s.varName?.toList s.declared?.toList →
      (p.stmt s).Alike (R.likeness pairs) (R.names marks) s'
  | .expression _ e, _, .expression he, p, hp, marks, hm, _ =>
    .expression (he.renamed e _ p ((Enters.leading rfl).sound hp) marks hm)
  | .print _ e, _, .print ht he, p, hp, marks, hm, _ =>
    .print (ht.alike_of_not_mem hm.not_mem)
      (he.renamed e _ p ((Enters.leading rfl).sound hp) marks hm.tail)
  | .var _ none, _, .declare ht, _, _, _, hm, hd => .declare (Respelling.binder_alike ht hm hd)
  | .var _ (some e), _, .define ht he, _, hp, marks, hm, hd =>
    .define (Respelling.binder_alike ht hm hd)
      (he.renamed e _ _ (Enters.init.sound hp) marks hm.tail)
  | .block _ body, _, .block _ hbody, p, hp, marks, hm, _ => by
    let q := p.inside (pure ()) (resolveStmts p.around body)
    have hfresh : Fresh (fun _ => none) ([] ++ body.filterMap Stmt.declared?) := hp.fresh_block
    exact .block ⟨_, R.names_cons _ marks⟩
      (hbody.renamed body _ q (Enters.block.sound hp) _ hm
        (Respelling.owns_scope hfresh (q.filterMap_varName? body)))
  | .ifElse _ c yes none, _, .ifOnly ht hc hy, p, hp, marks, hm, _ =>
    .ifOnly (ht.alike_of_not_mem hm.not_mem)
      (hc.renamed c _ p ((Enters.leading rfl).sound hp) marks hm.tail.left)
      (hy.renamed yes _ _ (Enters.yes.sound hp) marks hm.tail.right
        (Respelling.owns_branch hp.wellFormed.2.2))
  | .ifElse _ c yes (some no), _, .ifElse ht hc hy hn, p, hp, marks, hm, _ =>
    .ifElse (ht.alike_of_not_mem hm.not_mem)
      (hc.renamed c _ p ((Enters.leading rfl).sound hp) marks hm.tail.left)
      (hy.renamed yes _ _ (Enters.yes.sound hp) marks hm.tail.right.left
        (Respelling.owns_branch hp.wellFormed.2.1.2))
      (hn.renamed no _ _ (Enters.no.sound hp) marks hm.tail.right.right
        (Respelling.owns_branch hp.wellFormed.2.2.2))
  | .whileLoop _ c body, _, .whileLoop ht hc hb, p, hp, marks, hm, _ =>
    .whileLoop (ht.alike_of_not_mem hm.not_mem).loop
      (hc.renamed c _ p ((Enters.leading rfl).sound hp) marks hm.tail.left)
      (hb.renamed body _ _ (Enters.loopBody.sound hp) marks hm.tail.right
        (Respelling.owns_branch hp.wellFormed.2.2))
  | .breakLoop _, _, .breakLoop ht, _, _, _, hm, _ =>
    .breakLoop (ht.alike_of_not_mem hm.not_mem)
  | .returnValue _ none, _, .returnNothing ht, _, _, _, hm, _ =>
    .returnNothing (ht.alike_of_not_mem hm.not_mem)
  | .returnValue _ (some e), _, .returnValue ht he, _, hp, marks, hm, _ =>
    .returnValue (ht.alike_of_not_mem hm.not_mem)
      (he.renamed e _ _ (Enters.returned.sound hp) marks hm.tail)
  | .function f, _, .function ht hf, p, hp, marks, hm, hd => by
    have hfunction := hf.renamed f _ .ordinary _ (Enters.named.sound hp) marks hm
    cases f
    exact .function (Respelling.title_alike ht hm hd) hfunction
  | .classDecl name parent _ ms ss, _, .classDecl ht hr hms hss, p, hp, marks, hm, hd => by
    rw [Site.stmt_classDecl] at hm ⊢
    let q := p.inClass name parent ms ss
    have hmembers := R.names_memberMarks (p.superclass name parent).isSome marks
    have hmethods := hms.renamed ms _ false q (Enters.methods.sound hp) _ hm.tail.right.left
    have hstatics := hss.renamed ss _ true _ (Enters.statics.sound hp) _ hm.tail.right.right
    rw [hmembers] at hmethods hstatics
    refine .classDecl (Respelling.title_alike ht hm hd) ?_ hmethods hstatics
    exact Respelling.superclass_alike hr hp.wellFormed.2.1 hm.tail.left
  | .invalid _, _, .invalid _, _, hp, _, _, _ => hp.wellFormed.elim
termination_by structural x => x

lemma AlikeStmts.renamed : (body body' : List Stmt) →
    AlikeStmts (.ofTokens (R.Paired pairs)) () body body' → (p : Site) → p.Sound (.stmts body) →
      (marks : List Bool) → R.Tags (taggedStmts R.declared marks (p.stmts body)) →
      R.Owns marks (body.filterMap Stmt.varName?) (body.filterMap Stmt.declared?) →
      AlikeStmts (R.likeness pairs) (R.names marks) (p.stmts body) body'
  | [], _, .nil, _, _, _, _, _ => .nil
  | s :: body, _, .cons hs hbody, p, hp, marks, hm, hd =>
    .cons (hs.renamed s _ p (Enters.headStmt.sound hp) marks hm.left
        (hd.mono (subset_filterMap_cons _ s body).1 (subset_filterMap_cons _ s body).1))
      (hbody.renamed body _ _ (Enters.tailStmts.sound hp) marks hm.right
        (hd.mono (subset_filterMap_cons _ s body).2 (subset_filterMap_cons _ s body).2))
termination_by structural x => x

lemma Function.Alike.renamed : (f f' : Function) →
    Function.Alike (.ofTokens (R.Paired pairs)) () f f' → (routine : Routine) → (p : Site) →
      p.Sound (.function routine f) → (marks : List Bool) →
      R.Tags ((p.function routine f).tagged R.declared marks) →
      (p.function routine f).Alike (R.likeness pairs) (R.names marks) f'
  | .mk head params line body, _, .mk ht _ hps hbody, routine, p, hp, marks, hm => by
    let q := p.inFunction routine params body
    let names := (params.map Params.names).getD []
    have hown : R.Owns (ownsScope R.declared names (q.stmts body) :: marks) _ _ :=
      Respelling.owns_scope hp.fresh_function (q.filterMap_varName? body)
    refine .mk (ht.alike_of_not_mem hm.not_mem) ⟨_, R.names_cons _ marks⟩ ?_
      (hbody.renamed body _ q (Enters.body.sound hp) _ hm.tail.right
        (hown.mono (List.subset_append_right _ _) (List.subset_append_right _ _)))
    have hparams := hm.tail.left
    have hunique := hown.mono (List.subset_append_left _ _) (List.subset_append_left _ _)
    cases hps with
    | none => exact .none
    | some hps => exact .some (Respelling.params_alike hps hparams hunique)
termination_by structural x => x

lemma AlikeMembers.renamed : (ms ms' : List Function) →
    AlikeMembers (.ofTokens (R.Paired pairs)) () ms ms' → (isStatic : Bool) → (p : Site) →
      p.Sound (.members isStatic ms) → (marks : List Bool) →
      R.Tags (taggedMembers R.declared marks (p.members isStatic ms)) →
      AlikeMembers (R.likeness pairs) (R.names marks) (p.members isStatic ms) ms'
  | [], _, .nil, _, _, _, _, _ => .nil
  | f :: ms, _, .cons hf hms, isStatic, p, hp, marks, hm =>
    .cons (hf.renamed f _ _ p (Enters.headMember.sound hp) marks hm.left)
      (hms.renamed ms _ isStatic _ (Enters.tailMembers.sound hp) marks hm.right)
termination_by structural x => x

end

end

end Lox
