import Lox.Proofs.Alike.Same
import Lox.Proofs.Alike.Spelling

/-! Trees of the same words: they differ at most in where their tokens stand, and in whether a loop
was written with `for` or with `while`. -/

namespace Lox

structure Token.SameWord (t t' : Token) : Prop where
  kind : t'.kind = t.kind
  lexeme : t'.lexeme = t.lexeme

namespace Token

variable {t t' t'' : Token}

lemma SameWord.refl (t : Token) : t.SameWord t := ⟨rfl, rfl⟩

lemma SameWord.trans (h : t.SameWord t') (h' : t'.SameWord t'') : t.SameWord t'' :=
  ⟨h'.kind.trans h.kind, h'.lexeme.trans h.lexeme⟩

lemma interchangeable_sameWord : Interchangeable SameWord where
  kind h := h.kind
  literal? h := by
    unfold literal?
    rw [h.kind, h.lexeme]
  always _ := ⟨rfl, rfl⟩

def SameLoop (t t' : Token) : Prop :=
  t.SameWord t' ∨ t.kind = .forWord ∧ t'.kind = .whileWord

lemma SameLoop.trans (h : t.SameLoop t') (h' : t'.SameLoop t'') : t.SameLoop t'' := by
  rcases h with h | ⟨hk, hk'⟩
  · rcases h' with h' | ⟨hk, hk'⟩
    · exact .inl (h.trans h')
    · exact .inr ⟨h.kind ▸ hk, hk'⟩
  · rcases h' with h' | ⟨hk'', -⟩
    · exact .inr ⟨hk, h'.kind.trans hk'⟩
    · rw [hk'] at hk''
      cases hk''

end Token

def Likeness.words : Likeness Unit where
  token := Token.SameWord
  loop := Token.SameLoop
  use _ r r' := r.name.SameWord r'.name ∧ r'.depth = r.depth
  binder _ := Token.SameWord
  title _ := Token.SameWord
  enter _ _ := True
  members _ _ := ()

namespace Likeness

lemma words_covers : words.Covers Token.SameWord where
  token h := h
  loop h := .inl h
  use h := ⟨h, rfl⟩
  binder h _ := h
  title h _ := h
  enter := trivial

lemma words_reflexive : words.Reflexive () where
  token := .refl
  loop t := .inl (.refl t)
  use r := ⟨.refl r.name, rfl⟩
  binder := .refl
  title := .refl
  enter := trivial
  members _ := rfl

lemma words_use_trans {r r' r'' : Reference} (h : words.use () r r') (h' : words.use () r' r'') :
    words.use () r r'' :=
  ⟨h.1.trans h'.1, h'.2.trans h.2⟩

end Likeness

lemma optionRel_trans {α : Type} {R : α → α → Prop} {a b c : Option α}
    (hR : ∀ x y z, R x y → R y z → R x z) (h : Option.Rel R a b) (h' : Option.Rel R b c) :
    Option.Rel R a c := by
  cases h with
  | none =>
    cases h'
    exact .none
  | some h =>
    cases h' with
    | some h' => exact .some (hR _ _ _ h h')

lemma forall₂_sameWord_trans {ts us vs : List Token} (h : List.Forall₂ Token.SameWord ts us)
    (h' : List.Forall₂ Token.SameWord us vs) : List.Forall₂ Token.SameWord ts vs := by
  induction h generalizing vs with
  | nil =>
    cases h'
    exact .nil
  | cons ht _ ih =>
    cases h' with
    | cons ht' h' => exact .cons (ht.trans ht') (ih h')

lemma forall₂_sameWord_of_eq {ts ts' : List Token}
    (h : ts'.map (fun t => (t.kind, t.lexeme)) = ts.map fun t => (t.kind, t.lexeme)) :
    List.Forall₂ Token.SameWord ts ts' := by
  have hwords := List.forall₂_map_left_iff.mp (List.forall₂_map_right_iff.mp
    (List.forall₂_eq_eq_eq ▸ h.symm : List.Forall₂ Eq _ _))
  exact hwords.imp fun t t' ht => ⟨(congrArg Prod.fst ht).symm, (congrArg Prod.snd ht).symm⟩

open Likeness (words words_use_trans)

mutual

lemma Expr.Alike.trans : (e e' e'' : Expr) → e.Alike words () e' → e'.Alike words () e'' →
    e.Alike words () e''
  | .literal _ _, _, _, .literal ht, .literal ht' => .literal (ht.trans ht')
  | .ref _, _, _, .ref hr, .ref hr' => .ref (words_use_trans hr hr')
  | .assign _ value _, _, _, .assign hr hv, .assign hr' hv' =>
    .assign (words_use_trans hr hr') (hv.trans value _ _ hv')
  | .get object _, _, _, .get ho ht, .get ho' ht' => .get (ho.trans object _ _ ho') (ht.trans ht')
  | .set object _ value _, _, _, .set ho ht hv, .set ho' ht' hv' =>
    .set (ho.trans object _ _ ho') (ht.trans ht') (hv.trans value _ _ hv')
  | .conditional c _ yes no, _, _, .conditional hc ht hy hn, .conditional hc' ht' hy' hn' =>
    .conditional (hc.trans c _ _ hc') (ht.trans ht') (hy.trans yes _ _ hy') (hn.trans no _ _ hn')
  | .lambda f, _, _, .lambda hf, .lambda hf' => .lambda (hf.trans f _ _ hf')
  | .comma l _ r, _, _, .comma hl ht hr, .comma hl' ht' hr' =>
    .comma (hl.trans l _ _ hl') (ht.trans ht') (hr.trans r _ _ hr')
  | .binary l _ r, _, _, .binary hl ht hr, .binary hl' ht' hr' =>
    .binary (hl.trans l _ _ hl') (ht.trans ht') (hr.trans r _ _ hr')
  | .logical l _ r, _, _, .logical hl ht hr, .logical hl' ht' hr' =>
    .logical (hl.trans l _ _ hl') (ht.trans ht') (hr.trans r _ _ hr')
  | .unary _ e, _, _, .unary ht he, .unary ht' he' => .unary (ht.trans ht') (he.trans e _ _ he')
  | .call callee _ es, _, _, .call hc ht hes, .call hc' ht' hes' =>
    .call (hc.trans callee _ _ hc') (ht.trans ht') (hes.trans es _ _ hes')
  | .this _, _, _, .this hr, .this hr' => .this (words_use_trans hr hr')
  | .super _ _, _, _, .super hr ht, .super hr' ht' =>
    .super (words_use_trans hr hr') (ht.trans ht')
  | .grouping _ e, _, _, .grouping ht he, .grouping ht' he' =>
    .grouping (ht.trans ht') (he.trans e _ _ he')
  | .list _ es, _, _, .list ht hes, .list ht' hes' => .list (ht.trans ht') (hes.trans es _ _ hes')
  | .invalid _, _, _, .invalid ht, .invalid ht' => .invalid (ht.trans ht')

lemma AlikeExprs.trans : (es es' es'' : List Expr) → AlikeExprs words () es es' →
    AlikeExprs words () es' es'' → AlikeExprs words () es es''
  | [], _, _, .nil, .nil => .nil
  | e :: es, _, _, .cons he hes, .cons he' hes' =>
    .cons (he.trans e _ _ he') (hes.trans es _ _ hes')

lemma Stmt.Alike.trans : (s s' s'' : Stmt) → s.Alike words () s' → s'.Alike words () s'' →
    s.Alike words () s''
  | .expression _ e, _, _, .expression he, .expression he' => .expression (he.trans e _ _ he')
  | .print _ e, _, _, .print ht he, .print ht' he' => .print (ht.trans ht') (he.trans e _ _ he')
  | .var _ none, _, _, .declare ht, .declare ht' => .declare (ht.trans ht')
  | .var _ (some e), _, _, .define ht he, .define ht' he' =>
    .define (ht.trans ht') (he.trans e _ _ he')
  | .block _ body, _, _, .block _ hb, .block _ hb' => .block trivial (hb.trans body _ _ hb')
  | .ifElse _ c yes none, _, _, .ifOnly ht hc hy, .ifOnly ht' hc' hy' =>
    .ifOnly (ht.trans ht') (hc.trans c _ _ hc') (hy.trans yes _ _ hy')
  | .ifElse _ c yes (some no), _, _, .ifElse ht hc hy hn, .ifElse ht' hc' hy' hn' =>
    .ifElse (ht.trans ht') (hc.trans c _ _ hc') (hy.trans yes _ _ hy') (hn.trans no _ _ hn')
  | .whileLoop _ c body, _, _, .whileLoop ht hc hb, .whileLoop ht' hc' hb' =>
    .whileLoop (ht.trans ht') (hc.trans c _ _ hc') (hb.trans body _ _ hb')
  | .breakLoop _, _, _, .breakLoop ht, .breakLoop ht' => .breakLoop (ht.trans ht')
  | .returnValue _ none, _, _, .returnNothing ht, .returnNothing ht' =>
    .returnNothing (ht.trans ht')
  | .returnValue _ (some e), _, _, .returnValue ht he, .returnValue ht' he' =>
    .returnValue (ht.trans ht') (he.trans e _ _ he')
  | .function f, _, _, .function ht hf, .function ht' hf' =>
    .function (ht.trans ht') (hf.trans f _ _ hf')
  | .classDecl _ _ _ ms ss, _, _, .classDecl ht hp hms hss, .classDecl ht' hp' hms' hss' =>
    .classDecl (ht.trans ht') (optionRel_trans (fun _ _ _ => words_use_trans) hp hp')
      (hms.trans ms _ _ hms') (hss.trans ss _ _ hss')
  | .invalid _, _, _, .invalid ht, .invalid ht' => .invalid (ht.trans ht')

lemma AlikeStmts.trans : (body body' body'' : List Stmt) → AlikeStmts words () body body' →
    AlikeStmts words () body' body'' → AlikeStmts words () body body''
  | [], _, _, .nil, .nil => .nil
  | s :: body, _, _, .cons hs hb, .cons hs' hb' =>
    .cons (hs.trans s _ _ hs') (hb.trans body _ _ hb')

lemma Function.Alike.trans : (f f' f'' : Function) → f.Alike words () f' →
    f'.Alike words () f'' → f.Alike words () f''
  | .mk _ _ _ body, _, _, .mk ht _ hp hb, .mk ht' _ hp' hb' =>
    .mk (ht.trans ht') trivial (optionRel_trans (fun _ _ _ => forall₂_sameWord_trans) hp hp')
      (hb.trans body _ _ hb')

lemma AlikeMembers.trans : (ms ms' ms'' : List Function) → AlikeMembers words () ms ms' →
    AlikeMembers words () ms' ms'' → AlikeMembers words () ms ms''
  | [], _, _, .nil, .nil => .nil
  | f :: ms, _, _, .cons hf hms, .cons hf' hms' =>
    .cons (hf.trans f _ _ hf') (hms.trans ms _ _ hms')

end

def Variation.places : Variation where
  place _ _ := True
  loop _ _ := True
  Renames r := ∀ name, r name = name
  Occurs _ := True
  place_of_loop _ := trivial
  loop_of_place _ _ _ := trivial
  place_this _ := trivial
  renames_id _ := rfl
  injective hr _ _ h := (hr _).symm.trans (h.trans (hr _))
  this hr := hr _
  super hr := hr _
  occurs_this := trivial
  occurs_super := trivial
  apart hr hr' _ _ h := (hr _).symm.trans (h.trans (hr' _))

lemma Variation.under_plain (V : Variation) (depth : Option Nat) :
    Names.under V.plain depth = id := by
  cases depth <;> rfl

lemma Token.SameWord.alike {t t' : Token} (h : t.SameWord t') : t.Alike .places id t' :=
  ⟨h.kind, h.lexeme, trivial⟩

theorem Variation.weaker_words :
    words.Weaker Variation.places.resolved fun _ ν => ν = Variation.places.plain where
  token h := h.alike
  loop _ := trivial
  use hν h := by
    subst hν
    refine ⟨h.2, ?_⟩
    rw [under_plain]
    exact h.1.alike
  binder hν h := by
    subst hν
    exact h.alike
  title hν h := by
    subst hν
    exact ⟨h.alike, rfl⟩
  enter hν _ := by
    subst hν
    exact ⟨_, ⟨_, rfl⟩, Names.cons_same_plain⟩
  members b hν := by
    subst hν
    cases b
    · exact Names.cons_same_plain
    · simp only [resolved, if_true, Names.cons_same_plain]

end Lox
